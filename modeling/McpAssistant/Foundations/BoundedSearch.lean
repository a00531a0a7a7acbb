import Mathlib.Data.List.Basic

/-!
# Breadth-first search with a hop bound

A first-in first-out search over an arbitrary neighbour function.  Nodes and
edges are arbitrary types; the neighbour lists are ordered, and the order
decides which of several shortest paths is returned.  A node is discovered
once, remembers the node and edge that discovered it, and is expanded only
while its depth is below the bound.

`run_isSome` says the search never runs out of fuel when the fuel exceeds the
waiting and undiscovered nodes.  `search_two_eq_twoHop` says exactly which path
a search bounded by two hops returns.
-/

namespace McpAssistant.Foundations.BoundedSearch

open List

variable {Node Edge : Type}

/-- One step out of a node: the edge taken and the node it reaches. -/
structure Hop (Node Edge : Type) where
  target : Node
  edge : Edge
deriving DecidableEq

structure Discovery (Node Edge : Type) where
  depth : Nat
  parent : Option (Node × Edge)

/-- Discovered nodes and the queue of nodes still to expand. -/
structure Frontier (Node Edge : Type) where
  found : List (Node × Discovery Node Edge)
  queue : List Node

/-- Either the goal was reached along a path, or the search goes on. -/
inductive Progress (Node Edge : Type) where
  | reached (path : Option (List (Hop Node Edge)))
  | pending (frontier : Frontier Node Edge)

/-- Follows parents from a node back to the start, collecting the hops. -/
def walkBack [DecidableEq Node] (found : List (Node × Discovery Node Edge)) (start : Node) :
    Nat → Node → List (Hop Node Edge) → Option (List (Hop Node Edge))
  | 0, _, _ => none
  | fuel + 1, node, path =>
    if node = start then
      some path
    else
      match found.lookup node with
      | some ⟨_, some (previous, edge)⟩ =>
        walkBack found start fuel previous (⟨node, edge⟩ :: path)
      | _ => none

/-- Offers each hop of one node in order: known targets are skipped, the goal
ends the search, any other target is discovered and queued. -/
def expand [DecidableEq Node] (start goal current : Node) (depth : Nat) :
    List (Hop Node Edge) → Frontier Node Edge → Progress Node Edge
  | [], frontier => .pending frontier
  | hop :: hops, frontier =>
    if (frontier.found.lookup hop.target).isSome then
      expand start goal current depth hops frontier
    else
      let found :=
        (hop.target, ⟨depth + 1, some (current, hop.edge)⟩) :: frontier.found
      if hop.target = goal then
        -- a node at depth `d` lies `d` parents away from the start
        .reached (walkBack found start (depth + 2) goal [])
      else
        expand start goal current depth hops ⟨found, frontier.queue ++ [hop.target]⟩

def depthOf [DecidableEq Node] (found : List (Node × Discovery Node Edge)) (node : Node) : Nat :=
  ((found.lookup node).map Discovery.depth).getD 0

/-- The main loop.  `none` means the fuel ran out; `some none` means the queue
emptied without meeting the goal. -/
def run [DecidableEq Node] (nbrs : Node → List (Hop Node Edge)) (bound : Nat) (start goal : Node) :
    Nat → Frontier Node Edge → Option (Option (List (Hop Node Edge)))
  | 0, _ => none
  | fuel + 1, frontier =>
    match frontier.queue with
    | [] => some none
    | current :: rest =>
      let depth := depthOf frontier.found current
      if bound ≤ depth then
        run nbrs bound start goal fuel ⟨frontier.found, rest⟩
      else
        match expand start goal current depth (nbrs current) ⟨frontier.found, rest⟩ with
        | .reached path => path.map some
        | .pending next => run nbrs bound start goal fuel next

/-- The search from a start: a start equal to the goal is an empty path. -/
def search [DecidableEq Node] (nbrs : Node → List (Hop Node Edge))
    (bound fuel : Nat) (start goal : Node) :
    Option (Option (List (Hop Node Edge))) :=
  if start = goal then
    some (some [])
  else
    run nbrs bound start goal fuel ⟨[(start, ⟨0, none⟩)], [start]⟩

def twoHop [DecidableEq Node] (nbrs : Node → List (Hop Node Edge))
    (start goal : Node) : Option (List (Hop Node Edge)) :=
  if start = goal then
    some []
  else
    match (nbrs start).find? (fun hop => hop.target = goal) with
    | some hop => some [hop]
    | none =>
      (nbrs start).findSome? fun first =>
        ((nbrs first.target).find? (fun hop => hop.target = goal)).map fun second => [first, second]

/-- The hops of a list that discover something: the first one to each target
outside `known`. -/
def fresh [DecidableEq Node] (known : List Node) : List (Hop Node Edge) → List (Hop Node Edge)
  | [] => []
  | hop :: hops =>
    if hop.target ∈ known then
      fresh known hops
    else
      hop :: fresh (hop.target :: known) hops

def record (current : Node) (depth : Nat) :
    List (Hop Node Edge) → List (Node × Discovery Node Edge) → List (Node × Discovery Node Edge)
  | [], found => found
  | hop :: hops, found =>
    record current depth hops ((hop.target, ⟨depth + 1, some (current, hop.edge)⟩) :: found)

/-- The discovered nodes. -/
def known (found : List (Node × Discovery Node Edge)) : List Node :=
  found.map Prod.fst

variable [DecidableEq Node]
  {found : List (Node × Discovery Node Edge)} {start goal node current : Node}

omit [DecidableEq Node] in
theorem known_cons (discovery : Discovery Node Edge) :
    known ((node, discovery) :: found) = node :: known found :=
  rfl

theorem isSome_lookup_iff : (found.lookup node).isSome = true ↔ node ∈ known found := by
  induction found with
  | nil => simp [known]
  | cons entry rest ih =>
    obtain ⟨key, discovery⟩ := entry
    by_cases same : node = key
    · simp [known, same]
    · have different : (node == key) = false := by simpa using same
      simpa only [known, lookup_cons, different, map_cons, mem_cons, same, false_or] using ih

theorem lookup_eq_none_iff : found.lookup node = none ↔ node ∉ known found := by
  rw [← isSome_lookup_iff, Bool.not_eq_true, Option.isSome_eq_false_iff, Option.isNone_iff_eq_none]

theorem lookup_cons_of_ne {other : Node} (different : node ≠ other)
    (discovery : Discovery Node Edge) :
    List.lookup node ((other, discovery) :: found) = found.lookup node := by
  have distinct : (node == other) = false := by simpa using different
  simp [lookup_cons, distinct]

variable {nodes : List Node} {hops : List (Hop Node Edge)} {hop : Hop Node Edge}

theorem target_notMem_of_mem_fresh (member : hop ∈ fresh nodes hops) : hop.target ∉ nodes := by
  induction hops generalizing nodes with
  | nil => simp [fresh] at member
  | cons first rest ih =>
    rw [fresh] at member
    split at member
    · exact ih member
    · rename_i new
      rcases List.mem_cons.mp member with rfl | later
      · exact new
      · intro old
        exact ih later (mem_cons_of_mem _ old)

theorem mem_of_mem_fresh (member : hop ∈ fresh nodes hops) : hop ∈ hops := by
  induction hops generalizing nodes with
  | nil => simp [fresh] at member
  | cons first rest ih =>
    rw [fresh] at member
    split at member
    · exact mem_cons_of_mem _ (ih member)
    · rcases List.mem_cons.mp member with rfl | later
      · exact mem_cons_self
      · exact mem_cons_of_mem _ (ih later)

theorem nodup_targets_fresh (nodes : List Node) (hops : List (Hop Node Edge)) :
    ((fresh nodes hops).map Hop.target).Nodup := by
  induction hops generalizing nodes with
  | nil => simp [fresh]
  | cons first rest ih =>
    rw [fresh]
    split
    · exact ih nodes
    · refine List.nodup_cons.mpr ⟨?_, ih _⟩
      intro again
      obtain ⟨hop, member, same⟩ := List.mem_map.mp again
      exact target_notMem_of_mem_fresh member (by simp [same])

variable {depth : Nat}

theorem lookup_record_of_notMem (absent : node ∉ hops.map Hop.target) :
    (record current depth hops found).lookup node = found.lookup node := by
  induction hops generalizing found with
  | nil => rfl
  | cons first rest ih =>
    simp only [map_cons, mem_cons, not_or] at absent
    rw [record, ih absent.2, lookup_cons_of_ne absent.1]

theorem lookup_record_of_mem (nodup : (hops.map Hop.target).Nodup) (member : hop ∈ hops) :
    (record current depth hops found).lookup hop.target =
      some ⟨depth + 1, some (current, hop.edge)⟩ := by
  induction hops generalizing found with
  | nil => simp at member
  | cons first rest ih =>
    simp only [map_cons, nodup_cons] at nodup
    rcases List.mem_cons.mp member with rfl | later
    · rw [record, lookup_record_of_notMem nodup.1, lookup_cons_self]
    · exact ih nodup.2 later

theorem expand_of_no_goal (avoids : ∀ hop ∈ hops, hop.target ≠ goal) (queue : List Node) :
    expand start goal current depth hops ⟨found, queue⟩ =
      .pending ⟨record current depth (fresh (known found) hops) found,
        queue ++ (fresh (known found) hops).map Hop.target⟩ := by
  induction hops generalizing found queue with
  | nil => simp [expand, fresh, record]
  | cons first rest ih =>
    have restAvoids : ∀ hop ∈ rest, hop.target ≠ goal :=
      fun hop member => avoids hop (mem_cons_of_mem _ member)
    by_cases old : first.target ∈ known found
    · rw [expand, if_pos (isSome_lookup_iff.mpr old), ih restAvoids, fresh, if_pos old]
    · rw [expand, if_neg (mt isSome_lookup_iff.mp old),
        if_neg (avoids first mem_cons_self), ih restAvoids, fresh,
        if_neg old]
      simp [record, known]

/-- An expansion that meets the goal stops at the first hop to it; everything
recorded before the expansion is still recorded. -/
theorem expand_of_goal (start current : Node) (depth : Nat)
    (first : hops.find? (fun hop => hop.target = goal) = some hop)
    (unmet : goal ∉ known found) (queue : List Node) :
    ∃ later, expand start goal current depth hops ⟨found, queue⟩ = .reached (walkBack
            ((goal, ⟨depth + 1, some (current, hop.edge)⟩) :: later)
            start (depth + 2) goal []) ∧
        ∀ node ∈ known found, later.lookup node = found.lookup node := by
  induction hops generalizing found queue with
  | nil => simp at first
  | cons head rest ih =>
    by_cases atGoal : head.target = goal
    · have same : head = hop := by simpa [atGoal] using first
      subst same
      refine ⟨found, ?_, fun _ _ => rfl⟩
      have new : ¬(found.lookup head.target).isSome := by
        rw [isSome_lookup_iff, atGoal]
        exact unmet
      rw [expand, if_neg new, if_pos atGoal, atGoal]
    · have restFirst : rest.find? (fun hop => hop.target = goal) = some hop := by
        simpa [atGoal] using first
      by_cases old : head.target ∈ known found
      · rw [expand, if_pos (isSome_lookup_iff.mpr old)]
        exact ih restFirst unmet queue
      · rw [expand, if_neg (mt isSome_lookup_iff.mp old), if_neg atGoal]
        have stillUnmet : goal ∉ known ((head.target, (⟨depth + 1, some (current, head.edge)⟩ :
              Discovery Node Edge)) :: found) := by
          simp only [known, map_cons, mem_cons, not_or]
          exact ⟨fun same => atGoal same.symm, unmet⟩
        obtain ⟨later, equal, kept⟩ := ih restFirst stillUnmet (queue ++ [head.target])
        refine ⟨later, equal, ?_⟩
        intro node member
        rw [kept node (mem_cons_of_mem _ member)]
        apply lookup_cons_of_ne
        rintro rfl
        exact old member

/-- The second hop of a two-hop path, after a given first one. -/
def continuation (nbrs : Node → List (Hop Node Edge)) (goal : Node)
    (first : Hop Node Edge) : Option (List (Hop Node Edge)) :=
  ((nbrs first.target).find? (fun hop => hop.target = goal)).map fun second => [first, second]

variable {nbrs : Node → List (Hop Node Edge)}

theorem continuation_eq_none_iff {first : Hop Node Edge} :
    continuation nbrs goal first = none ↔ ∀ hop ∈ nbrs first.target, hop.target ≠ goal := by
  simp [continuation, List.find?_eq_none]

omit [DecidableEq Node] in
/-- A first success of a partial function is its value at the first success. -/
theorem findSome?_eq_bind {Item Value : Type} (f : Item → Option Value) (items : List Item) :
    items.findSome? f = (items.find? fun item => (f item).isSome).bind f := by
  induction items with
  | nil => rfl
  | cons item items ih =>
    rw [List.findSome?_cons, List.find?_cons]
    cases value : f item with
    | some _ => simp [value]
    | none => simpa using ih

/-- Without a direct hop, the path goes through the first neighbour that has
one. -/
theorem twoHop_of_no_direct (away : start ≠ goal) (direct : ∀ hop ∈ nbrs start, hop.target ≠ goal) :
    twoHop nbrs start goal = ((nbrs start).find? fun first =>
        (continuation nbrs goal first).isSome).bind (continuation nbrs goal) := by
  have noHop : (nbrs start).find? (fun hop => hop.target = goal) = none := by
    simpa [List.find?_eq_none] using direct
  rw [twoHop, if_neg away, noHop]
  exact findSome?_eq_bind (continuation nbrs goal) (nbrs start)

theorem twoHop_of_direct (away : start ≠ goal)
    (first : (nbrs start).find? (fun hop => hop.target = goal) = some hop) :
    twoHop nbrs start goal = some [hop] := by
  rw [twoHop, if_neg away, first]

/-- Dropping the hops that discover nothing changes no search result: a target
seen before had no continuation. -/
theorem findSome?_fresh (hops : List (Hop Node Edge))
    (deadEnds : ∀ node ∈ nodes, ∀ hop ∈ nbrs node, hop.target ≠ goal) :
    (fresh nodes hops).findSome? (continuation nbrs goal) =
      hops.findSome? (continuation nbrs goal) := by
  induction hops generalizing nodes with
  | nil => rfl
  | cons first rest ih =>
    by_cases old : first.target ∈ nodes
    · have deadEnd : continuation nbrs goal first = none :=
        continuation_eq_none_iff.mpr (deadEnds _ old)
      rw [fresh, if_pos old, ih deadEnds, List.findSome?_cons, deadEnd]
    · rw [fresh, if_neg old, List.findSome?_cons, List.findSome?_cons]
      cases found : continuation nbrs goal first with
      | some path => rfl
      | none =>
        refine ih ?_
        intro node member
        rcases List.mem_cons.mp member with rfl | earlier
        · exact continuation_eq_none_iff.mp found
        · exact deadEnds node earlier

/-- The loop invariant while first-hop nodes wait: each waiting first hop is
recorded with its own edge, everything behind them lies two hops out, and the
goal is still unmet. -/
structure SecondLevel (start goal : Node)
    (found : List (Node × Discovery Node Edge)) (firsts : List (Hop Node Edge))
    (seconds : List Node) : Prop where
  unmet : goal ∉ known found
  recorded : ∀ hop ∈ firsts, found.lookup hop.target = some ⟨1, some (start, hop.edge)⟩
  away : ∀ hop ∈ firsts, hop.target ≠ start
  distant : ∀ node ∈ seconds, depthOf found node = 2

namespace SecondLevel

variable {first : Hop Node Edge} {firsts : List (Hop Node Edge)}
  {seconds : List Node} {hops : List (Hop Node Edge)}

theorem mem_known {hop : Hop Node Edge} (level : SecondLevel start goal found firsts seconds)
    (member : hop ∈ firsts) : hop.target ∈ known found := by
  rw [← isSome_lookup_iff, level.recorded hop member]
  rfl

theorem distant_mem_known (level : SecondLevel start goal found firsts seconds)
    (member : node ∈ seconds) : node ∈ known found := by
  by_contra absent
  have depth := level.distant node member
  rw [depthOf, lookup_eq_none_iff.mpr absent] at depth
  simp at depth

/-- Expanding a first-hop node without meeting the goal keeps the invariant;
its fresh targets join the distant nodes. -/
theorem expanded (level : SecondLevel start goal found (first :: firsts) seconds)
    (avoids : ∀ hop ∈ hops, hop.target ≠ goal) :
    SecondLevel start goal (record first.target 1 (fresh (known found) hops) found) firsts
      (seconds ++ (fresh (known found) hops).map Hop.target) := by
  have untouched : ∀ node ∈ known found,
      (record first.target 1 (fresh (known found) hops) found).lookup node = found.lookup node := by
    intro node old
    apply lookup_record_of_notMem
    intro again
    obtain ⟨hop, member, same⟩ := List.mem_map.mp again
    exact target_notMem_of_mem_fresh member (same ▸ old)
  refine ⟨?_, ?_, ?_, ?_⟩
  · rw [← lookup_eq_none_iff, lookup_record_of_notMem, lookup_eq_none_iff.mpr level.unmet]
    intro again
    obtain ⟨hop, member, same⟩ := List.mem_map.mp again
    exact avoids hop (mem_of_mem_fresh member) same
  · intro hop member
    have member' : hop ∈ first :: firsts := mem_cons_of_mem _ member
    rw [untouched _ (level.mem_known member')]
    exact level.recorded hop member'
  · intro hop member
    exact level.away hop (mem_cons_of_mem _ member)
  · intro node member
    rcases List.mem_append.mp member with old | new
    · rw [depthOf, untouched node (level.distant_mem_known old)]
      exact level.distant node old
    · obtain ⟨hop, isFresh, rfl⟩ := List.mem_map.mp new
      rw [depthOf, lookup_record_of_mem (nodup_targets_fresh _ _) isFresh]
      rfl

theorem walkBack_eq {second : Hop Node Edge} {later : List (Node × Discovery Node Edge)}
    (level : SecondLevel start goal found (first :: firsts) seconds)
    (kept : ∀ node ∈ known found, later.lookup node = found.lookup node)
    (goalAway : goal ≠ start) (atGoal : second.target = goal) :
    walkBack ((goal, ⟨2, some (first.target, second.edge)⟩) :: later) start 3
        goal [] = some [first, second] := by
  have known' := level.mem_known (mem_cons_self)
  have firstNotGoal : first.target ≠ goal := by
    rintro rfl
    exact level.unmet known'
  have firstRecorded : later.lookup first.target = some ⟨1, some (start, first.edge)⟩ := by
    rw [kept _ known']
    exact level.recorded first mem_cons_self
  subst atGoal
  rw [walkBack, if_neg goalAway, lookup_cons_self]
  dsimp only
  rw [walkBack, if_neg (level.away first mem_cons_self),
    lookup_cons_of_ne firstNotGoal, firstRecorded]
  dsimp only
  rw [walkBack, if_pos rfl]

theorem run_eq {nbrs : Node → List (Hop Node Edge)} {fuel : Nat}
    {result : Option (List (Hop Node Edge))} (goalAway : goal ≠ start)
    (level : SecondLevel start goal found firsts seconds)
    (returned : run nbrs 2 start goal fuel
      ⟨found, firsts.map Hop.target ++ seconds⟩ = some result) :
    result = firsts.findSome? (continuation nbrs goal) := by
  induction fuel generalizing found firsts seconds with
  | zero => simp [run] at returned
  | succ fuel ih =>
    cases firsts with
    | nil =>
      cases seconds with
      | nil => simpa [run] using returned.symm
      | cons node rest =>
        have deep : 2 ≤ depthOf found node := Nat.le_of_eq (level.distant node mem_cons_self).symm
        rw [map_nil, nil_append, run] at returned
        simp only [if_pos deep] at returned
        have remaining : SecondLevel start goal found ([] : List (Hop Node Edge)) rest := by
          refine ⟨level.unmet, by simp, by simp, ?_⟩
          intro other member
          exact level.distant other (mem_cons_of_mem _ member)
        exact ih remaining returned
    | cons first firsts =>
      have depth : depthOf found first.target = 1 := by
        rw [depthOf, level.recorded first mem_cons_self]
        rfl
      rw [map_cons, cons_append, run] at returned
      simp only [depth, show ¬2 ≤ 1 by omega, if_false] at returned
      rw [List.findSome?_cons]
      cases second : (nbrs first.target).find? (fun hop => hop.target = goal) with
      | some hop =>
        have atGoal : hop.target = goal := by
          simpa using List.find?_some second
        obtain ⟨later, equal, kept⟩ :=
          expand_of_goal start first.target 1 second level.unmet (firsts.map Hop.target ++ seconds)
        rw [equal] at returned
        simp only [level.walkBack_eq kept goalAway atGoal, Option.map_some,
          Option.some.injEq] at returned
        simp [continuation, second, ← returned]
      | none =>
        have avoids : ∀ hop ∈ nbrs first.target, hop.target ≠ goal := by
          simpa [List.find?_eq_none] using second
        rw [expand_of_no_goal avoids] at returned
        have deadEnd : continuation nbrs goal first = none := continuation_eq_none_iff.mpr avoids
        rw [deadEnd]
        apply ih (level.expanded avoids)
        simpa using returned

end SecondLevel

variable {fuel : Nat}

theorem eq_twoHop_of_search_eq_some {result : Option (List (Hop Node Edge))}
    (returned : search nbrs 2 fuel start goal = some result) :
    result = twoHop nbrs start goal := by
  rw [search] at returned
  rw [twoHop]
  by_cases same : start = goal
  · simpa [same] using returned.symm
  · rw [if_neg same] at returned ⊢
    have goalAway : goal ≠ start := fun equal => same equal.symm
    cases fuel with
    | zero => simp [run] at returned
    | succ fuel =>
      rw [run] at returned
      have depth : depthOf [(start, (⟨0, none⟩ : Discovery Node Edge))] start =
          0 := by
        simp [depthOf]
      have unmet : goal ∉ known [(start, (⟨0, none⟩ : Discovery Node Edge))] := by
        simpa [known] using goalAway
      simp only [depth, show ¬2 ≤ 0 by omega, if_false] at returned
      cases direct : (nbrs start).find? (fun hop => hop.target = goal) with
      | some hop =>
        have atGoal : hop.target = goal := by
          simpa using List.find?_some direct
        obtain ⟨later, equal, -⟩ := expand_of_goal start start 0 direct unmet []
        rw [equal, walkBack, if_neg goalAway, lookup_cons_self] at returned
        simp only [walkBack, if_true, Option.map_some, Option.some.injEq] at returned
        rw [← returned, ← atGoal]
      | none =>
        have avoids : ∀ hop ∈ nbrs start, hop.target ≠ goal := by
          simpa [List.find?_eq_none] using direct
        rw [expand_of_no_goal avoids, nil_append] at returned
        have startKnown : known [(start, (⟨0, none⟩ : Discovery Node Edge))] = [start] := rfl
        rw [startKnown] at returned
        have noGoal : goal ∉ (fresh [start] (nbrs start)).map Hop.target := by
          intro member
          obtain ⟨hop, isFresh, equal⟩ := List.mem_map.mp member
          exact avoids hop (mem_of_mem_fresh isFresh) equal
        have level : SecondLevel start goal
            (record start 0 (fresh [start] (nbrs start)) [(start, ⟨0, none⟩)])
            (fresh [start] (nbrs start)) [] := by
          refine ⟨?_, ?_, ?_, by simp⟩
          · rw [← lookup_eq_none_iff, lookup_record_of_notMem noGoal, lookup_eq_none_iff]
            exact unmet
          · intro hop member
            exact lookup_record_of_mem (nodup_targets_fresh _ _) member
          · intro hop member equal
            exact target_notMem_of_mem_fresh member (by simp [equal])
        have found := level.run_eq goalAway (by simpa using returned)
        rw [found, findSome?_fresh]
        · rfl
        · simpa using avoids

/-- Every recorded parent is itself recorded one hop closer to the start, and
only the start has none. -/
def Traced (start : Node) (found : List (Node × Discovery Node Edge)) : Prop :=
  ∀ node discovery, found.lookup node = some discovery →
    match discovery.parent with
    | none => node = start
    | some (previous, _) =>
      ∃ earlier, found.lookup previous = some earlier ∧ earlier.depth + 1 = discovery.depth

theorem Traced.isSome_walkBack (traced : Traced start found) (fuel : Nat)
    (path : List (Hop Node Edge)) {discovery : Discovery Node Edge}
    (recorded : found.lookup node = some discovery)
    (enough : discovery.depth < fuel) :
    (walkBack found start fuel node path).isSome := by
  induction fuel generalizing node discovery path with
  | zero => omega
  | succ fuel ih =>
    rw [walkBack]
    split
    · rfl
    · rename_i away
      have parent := traced node discovery recorded
      obtain ⟨depth, parent?⟩ := discovery
      cases parent? with
      | none => exact absurd parent away
      | some step =>
        obtain ⟨previous, edge⟩ := step
        obtain ⟨earlier, found', closer⟩ := parent
        simp only [recorded]
        apply ih _ found'
        dsimp only at closer enough
        omega

theorem Traced.cons (traced : Traced start found) (edge : Edge) {target : Node}
    {depth : Nat} (new : target ∉ known found) (old : current ∈ known found)
    (atDepth : depthOf found current = depth) :
    Traced start ((target, ⟨depth + 1, some (current, edge)⟩) :: found) := by
  intro node discovery recorded
  have knownAway : ∀ other ∈ known found, other ≠ target := by
    rintro other member rfl
    exact new member
  by_cases same : node = target
  · subst same
    rw [lookup_cons_self] at recorded
    cases recorded
    obtain ⟨earlier, found'⟩ := Option.isSome_iff_exists.mp (isSome_lookup_iff.mpr old)
    refine ⟨earlier, ?_, ?_⟩
    · rw [lookup_cons_of_ne (knownAway current old), found']
    · rw [depthOf, found'] at atDepth
      simpa using atDepth
  · rw [lookup_cons_of_ne same] at recorded
    have parent := traced node discovery recorded
    cases parent? : discovery.parent with
    | none => simpa [parent?] using parent
    | some step =>
      simp only [parent?] at parent ⊢
      obtain ⟨earlier, found', closer⟩ := parent
      refine ⟨earlier, ?_, closer⟩
      rw [lookup_cons_of_ne, found']
      apply knownAway
      rw [← isSome_lookup_iff, found']
      rfl

def undiscovered (nodes : List Node) (found : List (Node × Discovery Node Edge)) : List Node :=
  nodes.filter (fun node => node ∉ known found)

theorem length_undiscovered_cons_lt {target : Node}
    (discovery : Discovery Node Edge) (member : target ∈ nodes)
    (new : target ∉ known found) :
    (undiscovered nodes ((target, discovery) :: found)).length <
      (undiscovered nodes found).length := by
  have split : undiscovered nodes ((target, discovery) :: found) =
      (undiscovered nodes found).filter (fun node => node ≠ target) := by
    rw [undiscovered, undiscovered, filter_filter]
    apply filter_congr
    intro node _
    rw [Bool.eq_iff_iff]
    simp only [decide_eq_true_eq, Bool.and_eq_true, known_cons, mem_cons, not_or]
  rw [split]
  apply List.length_filter_lt_length_iff_exists.mpr
  refine ⟨target, ?_, by simp⟩
  simp [undiscovered, member, new]

/-- The work left: nodes waiting and nodes that may still be discovered. -/
def workLeft (nodes : List Node) (frontier : Frontier Node Edge) : Nat :=
  frontier.queue.length + (undiscovered nodes frontier.found).length

/-- The frontier's bookkeeping is consistent. -/
structure Consistent (start : Node) (frontier : Frontier Node Edge) : Prop where
  traced : Traced start frontier.found
  queued : ∀ node ∈ frontier.queue, node ∈ known frontier.found

variable {frontier : Frontier Node Edge}

theorem expand_progress (goal : Node) (closed : ∀ hop ∈ hops, hop.target ∈ nodes)
    (consistent : Consistent start frontier)
    (expanding : current ∈ known frontier.found)
    (atDepth : depthOf frontier.found current = depth) :
    (∃ path, expand start goal current depth hops frontier = .reached (some path)) ∨
      ∃ next, expand start goal current depth hops frontier = .pending next ∧
        Consistent start next ∧
        workLeft nodes next ≤ workLeft nodes frontier := by
  induction hops generalizing frontier with
  | nil => exact .inr ⟨frontier, rfl, consistent, Nat.le_refl _⟩
  | cons hop rest ih =>
    have restClosed : ∀ hop ∈ rest, hop.target ∈ nodes :=
      fun other member => closed other (mem_cons_of_mem _ member)
    rw [expand]
    split
    · exact ih restClosed consistent expanding atDepth
    · rename_i unknown
      have new : hop.target ∉ known frontier.found := mt isSome_lookup_iff.mpr unknown
      have traced := consistent.traced.cons hop.edge new expanding atDepth
      dsimp only
      split
      · rename_i atGoal
        left
        have recorded : List.lookup goal ((hop.target,
            (⟨depth + 1, some (current, hop.edge)⟩ : Discovery Node Edge)) ::
              frontier.found) = some ⟨depth + 1, some (current, hop.edge)⟩ := by
          rw [atGoal, lookup_cons_self]
        obtain ⟨path, equal⟩ := Option.isSome_iff_exists.mp
          (traced.isSome_walkBack (depth + 2) [] recorded (by simp))
        exact ⟨path, by rw [equal]⟩
      · have fewer := length_undiscovered_cons_lt
          ⟨depth + 1, some (current, hop.edge)⟩ (closed hop mem_cons_self) new
        have grown : Consistent start ⟨(hop.target, ⟨depth + 1, some (current, hop.edge)⟩) ::
              frontier.found, frontier.queue ++ [hop.target]⟩ := by
          refine ⟨traced, ?_⟩
          intro node member
          rcases List.mem_append.mp member with old | added
          · exact mem_cons_of_mem _ (consistent.queued node old)
          · rw [List.mem_singleton.mp added]
            exact mem_cons_self
        have sameDepth : depthOf ((hop.target,
            (⟨depth + 1, some (current, hop.edge)⟩ : Discovery Node Edge)) ::
              frontier.found) current = depth := by
          rw [depthOf, lookup_cons_of_ne (by rintro rfl; exact new expanding)]
          exact atDepth
        rcases ih restClosed grown (mem_cons_of_mem _ expanding)
            sameDepth with reached | ⟨next, equal, consistent', less⟩
        · exact .inl reached
        · refine .inr ⟨next, equal, consistent', Nat.le_trans less ?_⟩
          simp only [workLeft, length_append, length_singleton]
          omega

theorem run_isSome {bound : Nat} (closed : ∀ node, ∀ hop ∈ nbrs node, hop.target ∈ nodes)
    (consistent : Consistent start frontier)
    (enough : workLeft nodes frontier < fuel) :
    (run nbrs bound start goal fuel frontier).isSome := by
  induction fuel generalizing frontier with
  | zero => omega
  | succ fuel ih =>
    obtain ⟨found, queue⟩ := frontier
    cases queue with
    | nil => rfl
    | cons current rest =>
      have expanding : current ∈ known found := consistent.queued current mem_cons_self
      have rest' : Consistent start (⟨found, rest⟩ : Frontier Node Edge) :=
        ⟨consistent.traced, fun node member =>
          consistent.queued node (mem_cons_of_mem _ member)⟩
      have less : workLeft nodes (⟨found, rest⟩ : Frontier Node Edge) <
          fuel := by
        simp only [workLeft, length_cons] at enough ⊢
        omega
      rw [run]
      dsimp only
      split
      · exact ih rest' less
      · rcases expand_progress goal (closed current) rest' expanding rfl with ⟨path, equal⟩ | ⟨next, equal, consistent', smaller⟩
        · rw [equal]
          rfl
        · rw [equal]
          exact ih consistent' (Nat.lt_of_le_of_lt smaller less)

theorem search_two_eq_twoHop (nodes : List Node)
    (closed : ∀ node, ∀ hop ∈ nbrs node, hop.target ∈ nodes)
    (enough : nodes.length + 1 < fuel) :
    search nbrs 2 fuel start goal = some (twoHop nbrs start goal) := by
  have returned : (search nbrs 2 fuel start goal).isSome := by
    rw [search]
    split
    · rfl
    · refine run_isSome closed ⟨?_, by simp [known]⟩ ?_
      · intro node discovery recorded
        by_cases same : node = start
        · subst same
          rw [lookup_cons_self] at recorded
          cases recorded
          rfl
        · rw [lookup_cons_of_ne same] at recorded
          simp at recorded
      · have fewer : (undiscovered nodes [(start, (⟨0, none⟩ : Discovery Node Edge))]).length ≤
              nodes.length := length_filter_le _ _
        simp only [workLeft, length_singleton]
        omega
  obtain ⟨result, equal⟩ := Option.isSome_iff_exists.mp returned
  rw [equal, eq_twoHop_of_search_eq_some equal]

end McpAssistant.Foundations.BoundedSearch
