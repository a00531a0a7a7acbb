import McpAssistant.BusinessQuery.JoinSearch
import McpAssistant.Foundations.JoinedRows

/-!
# The FROM clause

A statement starts from its anchor and joins the edges of the join tree one
after another, each toward the side that is not joined yet.  A resource is
multiplied when a walk over the tree leaves some resource from its one side.
-/

namespace McpAssistant.BusinessQuery.FromClause

open Outcomes JoinSearch Foundations.Fallible List

def otherEnd (edge : ResolvedJoin) (current : String) : String :=
  if edge.fromResource = current then edge.toResource else edge.fromResource

def onOneSide (edge : ResolvedJoin) (current : String) : Bool :=
  (edge.fromResource = current && edge.relationship = .oneToMany) ||
    (edge.toResource = current && edge.relationship = .manyToOne)

def edgesAt (tree : List ResolvedJoin) (current : String) : List ResolvedJoin :=
  tree.filter fun edge =>
    edge.fromResource = current || edge.toResource = current

def walkEdges (walk : String → List String → Bool × List String)
    (current : String) : List ResolvedJoin → List String → Bool × List String
  | [], visited => (false, visited)
  | edge :: edges, visited =>
    let other := otherEnd edge current
    if onOneSide edge current && !visited.contains other then
      (true, visited)
    else if visited.contains other then
      walkEdges walk current edges visited
    else
      match walk other visited with
      | (true, after) => (true, after)
      | (false, after) => walkEdges walk current edges after

def walkFrom (tree : List ResolvedJoin) : Nat → String → List String → Bool × List String
  | 0, _, visited => (false, visited)
  | fuel + 1, current, visited =>
    if visited.contains current then
      (false, visited)
    else
      walkEdges (walkFrom tree fuel) current (edgesAt tree current) (current :: visited)

def treeEndpoints (tree : List ResolvedJoin) : List String :=
  tree.flatMap fun edge => [edge.fromResource, edge.toResource]

/-- Whether joining the tree may repeat rows of a resource. -/
def isMultiplied (resource : String) (tree : List ResolvedJoin) : Bool :=
  (walkFrom tree ((treeEndpoints tree).length + 1) resource []).1

def isParentOf (parent child : String) (tree : List ResolvedJoin) : Bool :=
  tree.any fun edge =>
    (edge.fromResource = parent && edge.toResource = child && edge.relationship = .oneToMany) ||
      (edge.toResource = parent && edge.fromResource = child && edge.relationship = .manyToOne)

/-- The one resource whose rows a statement counts or lists. -/
def anchorResource (resources : List String) (tree : List ResolvedJoin)
    (declared : Option String) : Except Raised String :=
  match tree, resources with
  | [], first :: _ => .ok first
  -- a scope always has a resource
  | [], [] => .error (refused .noJoinPath)
  | _ :: _, _ =>
    match resources.filter fun name => !isMultiplied name tree with
    | [leaf] =>
      match declared with
      | none => .ok leaf
      | some name =>
        if name = leaf then
          .ok name
        else if isMultiplied name tree && isParentOf name leaf tree then
          .ok name
        else
          .error (refused .anchorNotRoot)
    | _ => .error (refused .fanoutUnsafe)

def guardMeasure (tree : List ResolvedJoin) (owner : String) : Except Raised Unit :=
  if !tree.isEmpty && isMultiplied owner tree then
    .error (refused .fanoutUnsafe)
  else
    .ok ()

variable {tree : List ResolvedJoin}

theorem isMultiplied_of_guardMeasure {owner : String}
    (accepted : guardMeasure tree owner = .ok ()) :
    isMultiplied owner tree = false := by
  rw [guardMeasure] at accepted
  split at accepted
  · cases accepted
  · rename_i passed
    cases tree with
    | nil => rfl
    | cons edge edges => simpa using passed

/-- An edge taken from one of its ends to the other. -/
def Runs (edge : ResolvedJoin) (near far : String) : Prop :=
  edge.fromResource = near ∧ edge.toResource = far ∨
    edge.toResource = near ∧ edge.fromResource = far

/-- One table joined to the ones before it. -/
structure Step where
  edge : ResolvedJoin
  near : String
  far : String
  runs : Runs edge near far

def isOuter (anchor : String) (edge : ResolvedJoin) : Bool :=
  edge.optional || (edge.fromResource = anchor && edge.relationship = .oneToMany)
    || (edge.toResource = anchor && edge.relationship = .manyToOne)

def takeStep (joined : List String) (edge : ResolvedJoin) : Option Step :=
  if joined.contains edge.fromResource && !joined.contains edge.toResource then
    some ⟨edge, edge.fromResource, edge.toResource, .inl ⟨rfl, rfl⟩⟩
  else if joined.contains edge.toResource && !joined.contains edge.fromResource then
    some ⟨edge, edge.toResource, edge.fromResource, .inr ⟨rfl, rfl⟩⟩
  else
    none

def passOver : List ResolvedJoin → List String → List Step × List ResolvedJoin
  | [], _ => ([], [])
  | edge :: edges, joined =>
    match takeStep joined edge with
    | some step =>
      let (steps, pending) := passOver edges (step.far :: joined)
      (step :: steps, pending)
    | none =>
      let (steps, pending) := passOver edges joined
      (steps, edge :: pending)

/-- Passes until nothing is pending.  Each pass takes an edge or gives up, so as
many passes as edges are enough. -/
def assembleRounds : Nat → List ResolvedJoin → List String → Except Raised (List Step)
  | _, [], _ => .ok []
  | 0, _ :: _, _ => .error (refused .noJoinPath)
  | rounds + 1, pending, joined =>
    match passOver pending joined with
    | ([], _) => .error (refused .noJoinPath)
    | (steps, left) => do
      let later ← assembleRounds rounds left ((steps.map Step.far).reverse ++ joined)
      return steps ++ later

def assembleFromClause (anchor : String) (tree : List ResolvedJoin) : Except Raised (List Step) :=
  assembleRounds tree.length tree [anchor]

/-- Each step leads from a joined table to a new one. -/
def Chained : List String → List Step → Prop
  | _, [] => True
  | joined, step :: steps =>
    step.near ∈ joined ∧ step.far ∉ joined ∧ Chained (step.far :: joined) steps

section Assembly

variable {joined : List String} {edge : ResolvedJoin}
  {step : Step} {steps later : List Step} {pending left : List ResolvedJoin}

theorem takeStep_eq_some (taken : takeStep joined edge = some step) :
    step.edge = edge ∧ step.near ∈ joined ∧ step.far ∉ joined := by
  rw [takeStep] at taken
  split at taken
  · rename_i ends
    cases taken
    simpa using ends
  · split at taken
    · rename_i ends
      cases taken
      simpa using ends
    · cases taken

theorem Chained.append (first : Chained joined steps)
    (second : Chained ((steps.map Step.far).reverse ++ joined) later) :
    Chained joined (steps ++ later) := by
  induction steps generalizing joined with
  | nil => exact second
  | cons step steps ih =>
    obtain ⟨near, far, rest⟩ := first
    refine ⟨near, far, ih rest ?_⟩
    simpa using second

theorem passOver_spec (pending : List ResolvedJoin) (joined : List String) :
    Chained joined (passOver pending joined).1 ∧ ((passOver pending joined).1.map Step.edge ++
        (passOver pending joined).2).Perm pending := by
  induction pending generalizing joined with
  | nil => exact ⟨trivial, .refl _⟩
  | cons edge edges ih =>
    rw [passOver]
    cases taken : takeStep joined edge with
    | some step =>
      obtain ⟨rfl, near, far⟩ := takeStep_eq_some taken
      obtain ⟨chained, perm⟩ := ih (step.far :: joined)
      exact ⟨⟨near, far, chained⟩, perm.cons _⟩
    | none =>
      obtain ⟨chained, perm⟩ := ih joined
      exact ⟨chained, List.perm_middle.trans (perm.cons _)⟩

theorem assembleRounds_eq_ok {rounds : Nat}
    (assembled : assembleRounds rounds pending joined = .ok steps) :
    Chained joined steps ∧ (steps.map Step.edge).Perm pending := by
  induction rounds generalizing pending joined steps with
  | zero =>
    cases pending with
    | nil =>
      cases assembled
      exact ⟨trivial, .refl _⟩
    | cons edge edges => cases assembled
  | succ rounds ih =>
    cases pending with
    | nil =>
      cases assembled
      exact ⟨trivial, .refl _⟩
    | cons edge edges =>
      have spec := passOver_spec (edge :: edges) joined
      simp only [assembleRounds] at assembled
      split at assembled
      · cases assembled
      · rename_i taken left passed
        rw [passed] at spec
        simp only [bind_eq_ok, pure_eq_ok] at assembled
        obtain ⟨later, isLater, rfl⟩ := assembled
        obtain ⟨chained, perm⟩ := ih isLater
        refine ⟨spec.1.append chained, ?_⟩
        rw [map_append]
        exact (perm.append_left _).trans spec.2

end Assembly

section Chain

variable {joined : List String} {steps : List Step} {step other : Step}
  (chained : Chained joined steps)
include chained

theorem Chained.far_not_mem (member : step ∈ steps) : step.far ∉ joined := by
  induction steps generalizing joined with
  | nil => cases member
  | cons first steps ih =>
    obtain ⟨-, far, rest⟩ := chained
    rcases List.mem_cons.mp member with rfl | later
    · exact far
    · exact fun old => ih rest later (mem_cons_of_mem _ old)

theorem Chained.near_ne_far (member : step ∈ steps) : step.near ≠ step.far := by
  induction steps generalizing joined with
  | nil => cases member
  | cons first steps ih =>
    obtain ⟨near, far, rest⟩ := chained
    rcases List.mem_cons.mp member with rfl | later
    · exact fun same => far (same ▸ near)
    · exact ih rest later

theorem Chained.nodup_far : (steps.map Step.far).Nodup := by
  induction steps generalizing joined with
  | nil => exact nodup_nil
  | cons first steps ih =>
    obtain ⟨-, -, rest⟩ := chained
    rw [map_cons, nodup_cons]
    refine ⟨?_, ih rest⟩
    intro again
    obtain ⟨step, member, same⟩ := List.mem_map.mp again
    apply rest.far_not_mem member
    rw [same]
    exact mem_cons_self

/-- A table is joined by one step. -/
theorem Chained.step_eq (member : step ∈ steps) (otherMember : other ∈ steps)
    (same : step.far = other.far) : step = other :=
  inj_on_of_nodup_map chained.nodup_far member otherMember same

theorem Chained.near_mem (member : step ∈ steps) :
    step.near ∈ joined ∨ ∃ earlier ∈ steps, earlier.far = step.near := by
  induction steps generalizing joined with
  | nil => cases member
  | cons first steps ih =>
    obtain ⟨near, -, rest⟩ := chained
    rcases List.mem_cons.mp member with rfl | later
    · exact .inl near
    · rcases ih rest later with placed | ⟨earlier, earlierIn, same⟩
      · rcases List.mem_cons.mp placed with here | old
        · exact .inr ⟨first, mem_cons_self, here.symm⟩
        · exact .inl old
      · exact .inr ⟨earlier, mem_cons_of_mem _ earlierIn, same⟩

omit chained

theorem Chained.induction {motive : String → Prop}
    (chained : Chained joined steps) (start : ∀ name ∈ joined, motive name)
    (next : ∀ step ∈ steps, motive step.near → motive step.far) :
    ∀ step ∈ steps, motive step.near ∧ motive step.far := by
  induction steps generalizing joined with
  | nil => exact fun step member => absurd member not_mem_nil
  | cons first steps ih =>
    obtain ⟨near, -, rest⟩ := chained
    have here := next first mem_cons_self (start _ near)
    intro step member
    rcases List.mem_cons.mp member with rfl | later
    · exact ⟨start _ near, here⟩
    · refine ih rest ?_ (fun step member =>
        next step (mem_cons_of_mem _ member)) step later
      intro name placed
      rcases List.mem_cons.mp placed with rfl | old
      · exact here
      · exact start name old

end Chain

/-- The steps of a clause: they use each edge of the tree once, and lead from
joined tables to new ones. -/
structure Assembled (anchor : String) (tree : List ResolvedJoin) (steps : List Step) : Prop where
  chained : Chained [anchor] steps
  edges : (steps.map Step.edge).Perm tree

variable {anchor : String} {steps : List Step}

theorem assembled_of_eq_ok (assembled : assembleFromClause anchor tree = .ok steps) :
    Assembled anchor tree steps := by
  obtain ⟨chained, edges⟩ := assembleRounds_eq_ok assembled
  exact ⟨chained, edges⟩

namespace Assembled

variable {anchor : String} {tree : List ResolvedJoin} {steps : List Step}
  {step : Step} {edge : ResolvedJoin} (assembled : Assembled anchor tree steps)
include assembled

theorem far_ne_anchor (member : step ∈ steps) : step.far ≠ anchor := by
  intro same
  apply assembled.chained.far_not_mem member
  rw [same]
  exact mem_cons_self

theorem near_ne_far (member : step ∈ steps) : step.near ≠ step.far :=
  assembled.chained.near_ne_far member

theorem near_eq (member : step ∈ steps) :
    step.near = anchor ∨ ∃ earlier ∈ steps, earlier.far = step.near := by
  rcases assembled.chained.near_mem member with here | earlier
  · exact .inl (List.mem_singleton.mp here)
  · exact .inr earlier

theorem edge_mem (member : step ∈ steps) : step.edge ∈ tree :=
  assembled.edges.subset (mem_map_of_mem member)

theorem exists_step (member : edge ∈ tree) : ∃ step ∈ steps, step.edge = edge :=
  List.mem_map.mp (assembled.edges.symm.subset member)

theorem step_of_runs (member : edge ∈ tree) {near far : String} (runs : Runs edge near far) :
    ∃ step ∈ steps, step.edge = edge ∧
      (step.near = near ∧ step.far = far ∨ step.near = far ∧ step.far = near) := by
  obtain ⟨step, stepIn, rfl⟩ := assembled.exists_step member
  refine ⟨step, stepIn, rfl, ?_⟩
  rcases runs with ⟨rfl, rfl⟩ | ⟨rfl, rfl⟩ <;>
    rcases step.runs with ⟨near, far⟩ | ⟨near, far⟩
  · exact .inl ⟨near.symm, far.symm⟩
  · exact .inr ⟨near.symm, far.symm⟩
  · exact .inr ⟨near.symm, far.symm⟩
  · exact .inl ⟨near.symm, far.symm⟩

theorem placed_of_endpoint {name : String} (endpoint : name = anchor ∨ name ∈ treeEndpoints tree) :
    name ∈ anchor :: steps.map Step.far := by
  have nearPlaced : ∀ step ∈ steps, step.near ∈ anchor :: steps.map Step.far := by
    intro step stepIn
    rcases assembled.near_eq stepIn with here | ⟨earlier, earlierIn, here⟩
    · rw [here]
      exact mem_cons_self
    · rw [← here]
      exact mem_cons_of_mem _ (mem_map_of_mem earlierIn)
  rcases endpoint with rfl | inTree
  · exact mem_cons_self
  · obtain ⟨edge, member, isEnd⟩ := List.mem_flatMap.mp inTree
    obtain ⟨step, stepIn, rfl⟩ := assembled.exists_step member
    have farPlaced : step.far ∈ anchor :: steps.map Step.far :=
      mem_cons_of_mem _ (mem_map_of_mem stepIn)
    rcases step.runs with ⟨here, there⟩ | ⟨here, there⟩ <;>
      rcases List.mem_pair.mp isEnd with rfl | rfl
    · rw [here]
      exact nearPlaced step stepIn
    · rw [there]
      exact farPlaced
    · rw [there]
      exact farPlaced
    · rw [here]
      exact nearPlaced step stepIn

theorem isOuter_iff_optional (member : step ∈ steps) (away : step.near ≠ anchor) :
    isOuter anchor step.edge = true ↔ step.edge.optional = true := by
  have far := assembled.far_ne_anchor member
  rcases step.runs with ⟨from', to'⟩ | ⟨from', to'⟩ <;>
    simp [isOuter, from', to', away, far]

end Assembled

/-- A simple path of the tree from the anchor, its last resource first. -/
inductive Route (tree : List ResolvedJoin) (anchor : String) : List String → Prop where
  | start : Route tree anchor [anchor]
  | step {near far : String} {before : List String} {edge : ResolvedJoin}
      (route : Route tree anchor (near :: before)) (member : edge ∈ tree)
      (runs : Runs edge near far) (fresh : far ∉ near :: before) :
      Route tree anchor (far :: near :: before)

namespace Assembled

variable {anchor near far : String} {before : List String}
  {tree : List ResolvedJoin} {steps : List Step} {edge : ResolvedJoin}

theorem step_of_route (assembled : Assembled anchor tree steps)
    (route : Route tree anchor (near :: before)) (member : edge ∈ tree)
    (runs : Runs edge near far) (fresh : far ∉ near :: before) :
    ∃ step ∈ steps, step.edge = edge ∧ step.near = near ∧ step.far = far := by
  generalize isPath : near :: before = path at route
  induction route generalizing near before far edge with
  | start =>
    cases isPath
    obtain ⟨step, stepIn, sameEdge, same | flipped⟩ := assembled.step_of_runs member runs
    · exact ⟨step, stepIn, sameEdge, same⟩
    · exact absurd flipped.2 (assembled.far_ne_anchor stepIn)
  | @step earlier here before' edge' _ member' runs' fresh' ih =>
    cases isPath
    obtain ⟨last, lastIn, -, lastNear, lastFar⟩ := ih member' runs' fresh' rfl
    obtain ⟨step, stepIn, sameEdge, same | flipped⟩ := assembled.step_of_runs member runs
    · exact ⟨step, stepIn, sameEdge, same⟩
    · -- the edge that led here would be taken back
      have back := assembled.chained.step_eq stepIn lastIn (flipped.2.trans lastFar.symm)
      subst back
      rw [← flipped.1, lastNear] at fresh
      exact absurd (mem_cons_of_mem _ mem_cons_self) fresh

theorem route_unique (assembled : Assembled anchor tree steps)
    {name : String} {path other : List String}
    (route : Route tree anchor (name :: path))
    (otherRoute : Route tree anchor (name :: other)) : path = other := by
  generalize isPath : name :: path = whole at route
  induction route generalizing name path other with
  | start =>
    cases isPath
    cases otherRoute with
    | start => rfl
    | step route member runs fresh =>
      obtain ⟨step, stepIn, -, -, same⟩ := assembled.step_of_route route member runs fresh
      exact absurd same (assembled.far_ne_anchor stepIn)
  | step route member runs fresh ih =>
    cases isPath
    obtain ⟨step, stepIn, -, rfl, rfl⟩ := assembled.step_of_route route member runs fresh
    cases otherRoute with
    | start => exact absurd rfl (assembled.far_ne_anchor stepIn)
    | step route' member' runs' fresh' =>
      obtain ⟨step', stepIn', -, rfl, same⟩ := assembled.step_of_route route' member' runs' fresh'
      rw [assembled.chained.step_eq stepIn' stepIn same] at route' ⊢
      rw [ih route' rfl]

end Assembled

theorem Chained.route {joined : List String} (chained : Chained joined steps)
    (inTree : ∀ step ∈ steps, step.edge ∈ tree)
    (reached : ∀ name ∈ joined, ∃ before, Route tree anchor (name :: before) ∧
      name :: before ⊆ joined) :
    ∀ step ∈ steps, ∃ before, Route tree anchor (step.near :: before) ∧
      step.far ∉ step.near :: before := by
  induction steps generalizing joined with
  | nil => exact fun step member => absurd member not_mem_nil
  | cons first steps ih =>
    obtain ⟨near, far, rest⟩ := chained
    obtain ⟨before, route, inside⟩ := reached first.near near
    have fresh : first.far ∉ first.near :: before := fun old => far (inside old)
    intro step member
    rcases List.mem_cons.mp member with rfl | later
    · exact ⟨before, route, fresh⟩
    · refine ih rest (fun step member =>
        inTree step (mem_cons_of_mem _ member)) ?_ step later
      intro name placed
      rcases List.mem_cons.mp placed with rfl | old
      · refine ⟨first.near :: before, route.step
          (inTree first mem_cons_self) first.runs fresh, ?_⟩
        exact cons_subset_cons _ inside
      · obtain ⟨earlier, route', inside'⟩ := reached name old
        exact ⟨earlier, route', fun x mem =>
          mem_cons_of_mem _ (inside' mem)⟩

theorem Assembled.route (assembled : Assembled anchor tree steps) {step : Step}
    (member : step ∈ steps) :
    ∃ before, Route tree anchor (step.near :: before) ∧ step.far ∉ step.near :: before := by
  refine assembled.chained.route (fun step member => assembled.edge_mem member) ?_ step member
  intro name placed
  rw [List.mem_singleton.mp placed]
  exact ⟨[], .start, fun x mem => mem⟩

end McpAssistant.BusinessQuery.FromClause
