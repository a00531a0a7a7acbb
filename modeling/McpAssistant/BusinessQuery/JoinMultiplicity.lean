import McpAssistant.BusinessQuery.JoinedSource

/-!
# What the multiplication walk guarantees

A walk that finds nothing has explored the whole tree from a resource, leaving
no resource from its one side.  A row of that resource then fixes the rows of
all others, so the joined tables hold it at most once.
-/

namespace McpAssistant.BusinessQuery.JoinMultiplicity

open Outcomes JoinSearch FromClause JoinedSource Foundations.JoinedRows List

inductive Explored (tree : List ResolvedJoin) (start : String) : List String → Prop where
  | start : Explored tree start [start]
  | next {visited : List String} {edge : ResolvedJoin} {near far : String}
      (earlier : Explored tree start visited) (member : edge ∈ tree)
      (reached : near ∈ visited) (runs : Runs edge near far)
      (fresh : far ∉ visited) (manySide : onOneSide edge near = false) :
      Explored tree start (far :: visited)

/-- Every edge at a resource leads into a set. -/
def ClosedAt (tree : List ResolvedJoin) (visited : List String) (name : String) : Prop :=
  ∀ edge ∈ tree, ∀ far, Runs edge name far → far ∈ visited

/-- The endpoints of the tree outside a set. -/
def unseen (tree : List ResolvedJoin) (visited : List String) : Nat :=
  (treeEndpoints tree).countP fun name => !visited.contains name

variable {tree : List ResolvedJoin} {start current : String}
  {visited middle after : List String} {edges : List ResolvedJoin}
  {edge : ResolvedJoin}

theorem ClosedAt.mono {name : String} (closed : ClosedAt tree visited name)
    (larger : visited ⊆ after) : ClosedAt tree after name :=
  fun edge member far runs => larger (closed edge member far runs)

theorem unseen_le (larger : visited ⊆ after) : unseen tree after ≤ unseen tree visited := by
  apply countP_mono_left
  intro name _ outside
  simp only [Bool.not_eq_true', contains_eq_mem, decide_eq_false_iff_not] at outside ⊢
  exact fun inside => outside (larger inside)

theorem unseen_lt {other : String} (endpoint : other ∈ treeEndpoints tree)
    (fresh : other ∉ visited) :
    unseen tree (other :: visited) < unseen tree visited := by
  rw [unseen, unseen, countP_eq_length_filter, countP_eq_length_filter]
  have inside : other ∈ (treeEndpoints tree).filter fun name =>
      !visited.contains name := by
    rw [mem_filter]
    exact ⟨endpoint, by simpa using fresh⟩
  have smaller : (treeEndpoints tree).filter (fun name =>
      !(other :: visited).contains name) = ((treeEndpoints tree).filter fun name =>
          !visited.contains name).filter (· ≠ other) := by
    rw [filter_filter]
    apply filter_congr
    intro name _
    simp
  rw [smaller]
  apply List.length_filter_lt_length_iff_exists.mpr
  exact ⟨other, inside, by simp⟩

theorem runs_otherEnd (atCurrent : edge.fromResource = current ∨
    edge.toResource = current) : Runs edge current (otherEnd edge current) := by
  rw [otherEnd]
  split
  · rename_i here
    exact .inl ⟨here, rfl⟩
  · rename_i elsewhere
    exact .inr ⟨atCurrent.resolve_left elsewhere, rfl⟩

theorem otherEnd_of_runs {far : String} (runs : Runs edge current far) :
    otherEnd edge current = far := by
  rw [otherEnd]
  rcases runs with ⟨here, there⟩ | ⟨here, there⟩
  · rw [if_pos here, there]
  · split
    · rename_i loop
      rw [here, ← loop, there]
    · exact there

theorem mem_edgesAt : edge ∈ edgesAt tree current ↔ edge ∈ tree ∧
      (edge.fromResource = current ∨ edge.toResource = current) := by
  simp [edgesAt]

theorem endpoint_of_runs {near far : String} (member : edge ∈ tree)
    (runs : Runs edge near far) : far ∈ treeEndpoints tree := by
  refine List.mem_flatMap.mpr ⟨edge, member, ?_⟩
  rcases runs with ⟨-, rfl⟩ | ⟨-, rfl⟩
  · simp
  · simp

/-- What a walk that finds nothing has done: it explored on, and every resource
it added is closed. -/
structure Walked (tree : List ResolvedJoin) (start : String)
    (visited after : List String) : Prop where
  explored : Explored tree start after
  larger : visited ⊆ after
  closed : ∀ name ∈ after, name ∈ visited ∨ ClosedAt tree after name

theorem walkEdges_spec {fuel : Nat} {walk : String → List String → Bool × List String}
    (walked : ∀ other visited after, walk other visited = (false, after) →
      other ∉ visited → Explored tree start (other :: visited) →
      unseen tree (other :: visited) < fuel →
      other ∈ after ∧ Walked tree start visited after)
    (inTree : ∀ edge ∈ edges, edge ∈ edgesAt tree current)
    (reached : current ∈ visited) (explored : Explored tree start visited)
    (enough : unseen tree visited ≤ fuel)
    (nothing : walkEdges walk current edges visited = (false, after)) :
    Walked tree start visited after ∧ ∀ edge ∈ edges, otherEnd edge current ∈ after := by
  induction edges generalizing visited with
  | nil =>
    cases nothing
    exact ⟨⟨explored, fun _ member => member, fun _ member => .inl member⟩,
      fun edge none => absurd none not_mem_nil⟩
  | cons edge edges ih =>
    obtain ⟨member, atCurrent⟩ := mem_edgesAt.mp (inTree edge mem_cons_self)
    have rest := fun later known => inTree later (mem_cons_of_mem edge known)
    have runs := runs_otherEnd atCurrent
    simp only [walkEdges] at nothing
    split at nothing
    · cases nothing
    · rename_i passed
      split at nothing
      · rename_i known
        obtain ⟨done, others⟩ := ih rest reached explored enough nothing
        refine ⟨done, ?_⟩
        intro later laterIn
        rcases List.mem_cons.mp laterIn with rfl | laterIn
        · exact done.larger (by simpa using known)
        · exact others later laterIn
      · rename_i unknown
        have fresh : otherEnd edge current ∉ visited := by simpa using unknown
        have manySide : onOneSide edge current = false := by
          simpa [fresh] using passed
        have fewer := unseen_lt (endpoint_of_runs member runs) fresh
        split at nothing
        · cases nothing
        · rename_i middle walkedFirst
          obtain ⟨found, first⟩ := walked _ _ _ walkedFirst fresh
            (explored.next member reached runs fresh manySide) (by omega)
          obtain ⟨done, others⟩ := ih rest (first.larger reached)
            first.explored ((unseen_le first.larger).trans enough) nothing
          refine ⟨⟨done.explored, fun _ known =>
            done.larger (first.larger known), ?_⟩, ?_⟩
          · intro name nameIn
            rcases done.closed name nameIn with before | closed
            · rcases first.closed name before with known | closed
              · exact .inl known
              · exact .inr (closed.mono done.larger)
            · exact .inr closed
          · intro later laterIn
            rcases List.mem_cons.mp laterIn with rfl | laterIn
            · exact done.larger found
            · exact others later laterIn

theorem walkFrom_spec {fuel : Nat} (nothing : walkFrom tree fuel current visited = (false, after))
    (fresh : current ∉ visited)
    (explored : Explored tree start (current :: visited))
    (enough : unseen tree (current :: visited) < fuel) :
    current ∈ after ∧ Walked tree start visited after := by
  induction fuel generalizing current visited after with
  | zero => exact absurd enough (Nat.not_lt_zero _)
  | succ fuel ih =>
    rw [walkFrom, if_neg (by simpa using fresh)] at nothing
    obtain ⟨done, others⟩ := walkEdges_spec (fun other visited after walked fresh explored enough =>
        ih walked fresh explored enough)
      (fun edge member => member) mem_cons_self explored
      (Nat.lt_succ_iff.mp enough) nothing
    have closedHere : ClosedAt tree after current := by
      intro edge member far runs
      rw [← otherEnd_of_runs runs]
      apply others
      apply mem_edgesAt.mpr
      refine ⟨member, ?_⟩
      rcases runs with ⟨here, -⟩ | ⟨here, -⟩
      · exact .inl here
      · exact .inr here
    refine ⟨done.larger mem_cons_self, done.explored,
      fun _ known => done.larger (mem_cons_of_mem _ known), ?_⟩
    intro name nameIn
    rcases done.closed name nameIn with before | closed
    · rcases List.mem_cons.mp before with rfl | known
      · exact .inr closedHere
      · exact .inl known
    · exact .inr closed

/-- A resource that is not multiplied reaches a closed part of the tree, going
from the many side of each edge. -/
theorem explored_of_not_multiplied {resource : String}
    (single : isMultiplied resource tree = false) :
    ∃ visited, Explored tree resource visited ∧ resource ∈ visited ∧
      ∀ name ∈ visited, ClosedAt tree visited name := by
  have nothing : walkFrom tree ((treeEndpoints tree).length + 1) resource [] =
      (false, (walkFrom tree ((treeEndpoints tree).length + 1) resource []).2) :=
    Prod.ext single rfl
  have enough : unseen tree [resource] < (treeEndpoints tree).length + 1 :=
    Nat.lt_succ_iff.mpr countP_le_length
  obtain ⟨found, walked⟩ := walkFrom_spec nothing not_mem_nil .start enough
  refine ⟨_, walked.explored, found, ?_⟩
  intro name member
  exact (walked.closed name member).resolve_left not_mem_nil

/-- Rows that respect the declared relationships: only a to-many edge connects
a row to several. -/
structure Cardinalities {Row : Type} (data : JoinData Row) (tree : List ResolvedJoin) : Prop where
  toOne : ∀ edge ∈ tree, edge.relationship ≠ .oneToMany → ∀ row ∈ data.rows edge.fromResource,
    ∀ first ∈ data.rows edge.toResource, ∀ second ∈ data.rows edge.toResource,
      data.on edge row first = true → data.on edge row second = true →
        first = second
  fromOne : ∀ edge ∈ tree, edge.relationship ≠ .manyToOne → ∀ row ∈ data.rows edge.toResource,
    ∀ first ∈ data.rows edge.fromResource,
    ∀ second ∈ data.rows edge.fromResource,
      data.on edge first row = true → data.on edge second row = true →
        first = second

section Unique

variable {Row : Type} {data : JoinData Row} {anchor : String} {steps : List Step} {step : Step}

/-- What a step's condition says of the edge. -/
theorem on_of_linked {near far : Row} (apart : step.near ≠ step.far)
    (links : linked data step (some near) far = true) :
    (step.edge.fromResource = step.near ∧ step.edge.toResource = step.far ∧
        data.on step.edge near far = true) ∨
      (step.edge.toResource = step.near ∧ step.edge.fromResource = step.far ∧
        data.on step.edge far near = true) := by
  simp only [linked, Bool.and_eq_true] at links
  rcases step.runs with ⟨here, there⟩ | ⟨here, there⟩
  · rw [if_pos here] at links
    exact .inl ⟨here, there, links.1⟩
  · rw [if_neg (fun same => apart (same.symm.trans there))] at links
    exact .inr ⟨here, there, links.1⟩

theorem far_unique (cardinalities : Cardinalities data tree)
    (member : step.edge ∈ tree) (apart : step.near ≠ step.far)
    (manySide : onOneSide step.edge step.near = false) {near : Row}
    (nearIn : near ∈ data.rows step.near) {first second : Row}
    (firstIn : first ∈ data.rows step.far)
    (secondIn : second ∈ data.rows step.far)
    (firstLinks : linked data step (some near) first = true)
    (secondLinks : linked data step (some near) second = true) :
    first = second := by
  simp only [onOneSide, Bool.or_eq_false_iff, Bool.and_eq_false_iff,
    decide_eq_false_iff_not] at manySide
  rcases on_of_linked apart firstLinks with ⟨here, there, on⟩ | ⟨here, there, on⟩ <;>
    rcases on_of_linked apart secondLinks with ⟨here', there', on'⟩ | ⟨here', there', on'⟩
  · have toOne := manySide.1.resolve_left (not_not_intro here)
    rw [← here] at nearIn
    rw [← there] at firstIn secondIn
    exact cardinalities.toOne step.edge member toOne near nearIn first firstIn
      second secondIn on on'
  · exact absurd (here.symm.trans there') apart
  · exact absurd (here'.symm.trans there) apart
  · have fromOne := manySide.2.resolve_left (not_not_intro here)
    rw [← here] at nearIn
    rw [← there] at firstIn secondIn
    exact cardinalities.fromOne step.edge member fromOne near nearIn first
      firstIn second secondIn on on'

theorem near_unique (cardinalities : Cardinalities data tree)
    (member : step.edge ∈ tree) (apart : step.near ≠ step.far)
    (manySide : onOneSide step.edge step.far = false) {far : Row}
    (farIn : far ∈ data.rows step.far) {first second : Row}
    (firstIn : first ∈ data.rows step.near)
    (secondIn : second ∈ data.rows step.near)
    (firstLinks : linked data step (some first) far = true)
    (secondLinks : linked data step (some second) far = true) :
    first = second := by
  simp only [onOneSide, Bool.or_eq_false_iff, Bool.and_eq_false_iff,
    decide_eq_false_iff_not] at manySide
  rcases on_of_linked apart firstLinks with ⟨here, there, on⟩ | ⟨here, there, on⟩ <;>
    rcases on_of_linked apart secondLinks with ⟨here', there', on'⟩ | ⟨here', there', on'⟩
  · have fromOne := manySide.2.resolve_left (not_not_intro there)
    rw [← here] at firstIn secondIn
    rw [← there] at farIn
    exact cardinalities.fromOne step.edge member fromOne far farIn first firstIn
      second secondIn on on'
  · exact absurd (here.symm.trans there') apart
  · exact absurd (here'.symm.trans there) apart
  · have toOne := manySide.1.resolve_left (not_not_intro there)
    rw [← here] at firstIn secondIn
    rw [← there] at farIn
    exact cardinalities.toOne step.edge member toOne far farIn first firstIn second secondIn on on'

variable {row : Row}

theorem exists_near_of_linked {near : Option Row}
    (links : linked data step near row = true) : ∃ found, near = some found := by
  cases near with
  | none => cases links
  | some found => exact ⟨found, rfl⟩

variable {result other : Binding String Row} (assembled : Assembled anchor tree steps)
include assembled

theorem far_agree (cardinalities : Cardinalities data tree)
    (resultIn : result ∈ fromRows data anchor steps)
    (otherIn : other ∈ fromRows data anchor steps) (stepIn : step ∈ steps)
    (manySide : onOneSide step.edge step.near = false)
    (same : result step.near = other step.near) :
    result step.far = other step.far := by
  cases stepHolds assembled.chained resultIn step stepIn with
  | matched first firstIn bound links =>
    cases stepHolds assembled.chained otherIn step stepIn with
    | matched second secondIn otherBound otherLinks =>
      obtain ⟨near, isNear⟩ := exists_near_of_linked links
      rw [← same, isNear] at otherLinks
      rw [isNear] at links
      have nearIn := mem_rows_of_bound assembled.chained resultIn isNear
      rw [bound, otherBound, far_unique cardinalities
        (assembled.edge_mem stepIn) (assembled.near_ne_far stepIn) manySide
        nearIn firstIn secondIn links otherLinks]
    | missing outer absent alone =>
      have refused := alone first firstIn
      rw [← same, links] at refused
      cases refused
  | missing outer absent alone =>
    cases stepHolds assembled.chained otherIn step stepIn with
    | matched second secondIn otherBound otherLinks =>
      have refused := alone second secondIn
      rw [same, otherLinks] at refused
      cases refused
    | missing _ otherAbsent _ => rw [absent, otherAbsent]

theorem near_agree (cardinalities : Cardinalities data tree)
    (resultIn : result ∈ fromRows data anchor steps)
    (otherIn : other ∈ fromRows data anchor steps) (stepIn : step ∈ steps)
    (manySide : onOneSide step.edge step.far = false)
    (bound : result step.far = some row)
    (otherBound : other step.far = some row) :
    ∃ found, result step.near = some found ∧ other step.near = some found := by
  have linkedNear : ∀ combination ∈ fromRows data anchor steps,
      combination step.far = some row → ∃ found ∈ data.rows step.near,
        combination step.near = some found ∧ linked data step (some found) row = true := by
    intro combination member isRow
    cases stepHolds assembled.chained member step stepIn with
    | matched found foundIn isFound links =>
      rw [isRow] at isFound
      cases isFound
      obtain ⟨near, isNear⟩ := exists_near_of_linked links
      rw [isNear] at links
      exact ⟨near, mem_rows_of_bound assembled.chained member isNear, isNear, links⟩
    | missing outer absent alone =>
      rw [absent] at isRow
      cases isRow
  obtain ⟨first, firstIn, isFirst, links⟩ := linkedNear result resultIn bound
  obtain ⟨second, secondIn, isSecond, otherLinks⟩ := linkedNear other otherIn otherBound
  have rowIn := mem_rows_of_bound assembled.chained resultIn bound
  have same := near_unique cardinalities (assembled.edge_mem stepIn)
    (assembled.near_ne_far stepIn) manySide rowIn firstIn secondIn links
    otherLinks
  rw [← same] at isSecond
  exact ⟨first, isFirst, isSecond⟩

theorem agree_of_explored (cardinalities : Cardinalities data tree)
    (resultIn : result ∈ fromRows data anchor steps)
    (otherIn : other ∈ fromRows data anchor steps)
    (bound : result start = some row) (otherBound : other start = some row)
    (explored : Explored tree start visited) :
    ∀ name ∈ visited, result name = other name ∧ ((∃ found, result name = some found) ∨
        ∃ step ∈ steps, step.far = name ∧ step.near ∈ visited) := by
  induction explored with
  | start =>
    intro name here
    rw [List.mem_singleton.mp here, bound, otherBound]
    exact ⟨rfl, .inl ⟨row, rfl⟩⟩
  | @next visited edge near far _ member reached runs fresh manySide ih =>
    intro name placed
    rcases List.mem_cons.mp placed with rfl | known
    · obtain ⟨sameNear, how⟩ := ih near reached
      obtain ⟨step, stepIn, rfl, ⟨rfl, rfl⟩ | ⟨rfl, rfl⟩⟩ := assembled.step_of_runs member runs
      · refine ⟨far_agree assembled cardinalities resultIn otherIn stepIn
          manySide sameNear, .inr ⟨step, stepIn, rfl, ?_⟩⟩
        exact mem_cons_of_mem _ reached
      · have nearBound : ∃ found, result step.far = some found := by
          rcases how with found | ⟨back, backIn, sameFar, visitedNear⟩
          · exact found
          · -- reached along this very step, its near end would be old
            rw [assembled.chained.step_eq backIn stepIn sameFar] at visitedNear
            exact absurd visitedNear fresh
        obtain ⟨found, isFound⟩ := nearBound
        obtain ⟨near, isNear, otherNear⟩ := near_agree assembled cardinalities
          resultIn otherIn stepIn manySide isFound (sameNear ▸ isFound)
        rw [isNear, otherNear]
        exact ⟨rfl, .inl ⟨near, rfl⟩⟩
    · obtain ⟨same, how⟩ := ih name known
      refine ⟨same, how.imp_right ?_⟩
      rintro ⟨step, stepIn, isFar, isNear⟩
      exact ⟨step, stepIn, isFar, mem_cons_of_mem _ isNear⟩

omit assembled

variable {resource : String}

theorem joined_subset_of_closed (assembled : Assembled anchor tree steps)
    (placed : resource ∈ anchor :: steps.map Step.far)
    (found : resource ∈ visited)
    (closed : ∀ name ∈ visited, ClosedAt tree visited name) :
    ∀ name ∈ anchor :: steps.map Step.far, name ∈ visited := by
  have back : ∀ step : Step, Runs step.edge step.far step.near := by
    intro step
    rcases step.runs with ⟨here, there⟩ | ⟨here, there⟩
    · exact .inr ⟨there, here⟩
    · exact .inl ⟨there, here⟩
  have spread := fun motive => @Chained.induction [anchor] steps motive assembled.chained
  have anchorIn : anchor ∈ visited := by
    have toAnchor := spread (fun name => name ∈ visited → anchor ∈ visited)
      (fun name here inside => List.mem_singleton.mp here ▸ inside)
      (fun step stepIn earlier inside => earlier
        (closed _ inside step.edge (assembled.edge_mem stepIn) _ (back step)))
    rcases List.mem_cons.mp placed with rfl | isFar
    · exact found
    · obtain ⟨step, stepIn, rfl⟩ := List.mem_map.mp isFar
      exact (toAnchor step stepIn).2 found
  have all := spread (fun name => name ∈ visited)
    (fun name here => List.mem_singleton.mp here ▸ anchorIn)
    (fun step stepIn near =>
      closed _ near step.edge (assembled.edge_mem stepIn) _ step.runs)
  intro name isPlaced
  rcases List.mem_cons.mp isPlaced with rfl | isFar
  · exact anchorIn
  · obtain ⟨step, stepIn, rfl⟩ := List.mem_map.mp isFar
    exact (all step stepIn).2

theorem eq_of_same_row (assembled : Assembled anchor tree steps)
    (cardinalities : Cardinalities data tree)
    (placed : resource ∈ anchor :: steps.map Step.far)
    (single : isMultiplied resource tree = false)
    (resultIn : result ∈ fromRows data anchor steps)
    (otherIn : other ∈ fromRows data anchor steps)
    (bound : result resource = some row) (otherBound : other resource = some row) :
    result = other := by
  obtain ⟨visited, explored, found, closed⟩ := explored_of_not_multiplied single
  have inside := joined_subset_of_closed assembled placed found closed
  funext name
  by_cases isPlaced : name ∈ anchor :: steps.map Step.far
  · exact (agree_of_explored assembled cardinalities resultIn otherIn bound
      otherBound explored name (inside name isPlaced)).1
  · rw [mem_cons, not_or] at isPlaced
    rw [absent_of_not_joined resultIn isPlaced.1 isPlaced.2,
      absent_of_not_joined otherIn isPlaced.1 isPlaced.2]

end Unique

/-- A database of one-row tables respects every relationship. -/
theorem cardinalities_missingOne (empty : String) (tree : List ResolvedJoin) :
    Cardinalities (missingOne empty) tree := by
  constructor
  · intro edge _ _ row _ first _ second _ _ _
    rfl
  · intro edge _ _ row _ first _ second _ _ _
    rfl

end McpAssistant.BusinessQuery.JoinMultiplicity
