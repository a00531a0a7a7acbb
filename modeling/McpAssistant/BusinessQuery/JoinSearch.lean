import McpAssistant.Foundations.BoundedSearch
import McpAssistant.Foundations.Fallible
import McpAssistant.BusinessQuery.Definitions
import McpAssistant.BusinessQuery.Outcomes

/-!
# The two join searches

Authorization and compilation each search the declared joins.  The scoping
resolver walks undirected neighbours in alphabetical order and returns the
resources it meets.  The compiler walks the joins in declaration order and
returns the edges it takes.  Both stop after two hops.

`shortestPath_eq` and `shortestJoinPath_eq` say exactly which path each search
picks.
-/

namespace McpAssistant.BusinessQuery.JoinSearch

open Definitions Outcomes Foundations.BoundedSearch Foundations.Fallible List

def maxJoinHops : Nat := 2

/-- The pairs of a list, each element with the later ones, in the order of two
nested loops. -/
def orderedPairs {Item : Type} : List Item → List (Item × Item)
  | [] => []
  | item :: items => items.map (fun later => (item, later)) ++ orderedPairs items

/-- Two resources that a declared join connects, in either direction. -/
def Adjacent (joins : List JoinDefinition) (left right : String) : Prop :=
  ∃ join ∈ joins, join.fromResource = left ∧ join.toResource = right ∨
      join.fromResource = right ∧ join.toResource = left

instance (joins : List JoinDefinition) (left right : String) :
    Decidable (Adjacent joins left right) :=
  inferInstanceAs (Decidable (∃ join ∈ joins, _))

/-- Enough fuel for any search: one step for each endpoint and two more. -/
def searchFuel (joins : List JoinDefinition) : Nat :=
  2 * joins.length + 2

def endpoints (joins : List JoinDefinition) : List String :=
  joins.flatMap fun join => [join.fromResource, join.toResource]

def scopingHops (joins : List JoinDefinition) (current : String) : List (Hop String Unit) :=
  let neighbours := joins.flatMap fun join =>
    (if join.fromResource = current then [join.toResource] else []) ++
      (if join.toResource = current then [join.fromResource] else [])
  (sortedSet neighbours).map fun neighbour => ⟨neighbour, ()⟩

/-- The resources on a shortest path of at most two joins. -/
def shortestPath (joins : List JoinDefinition) (start goal : String) : Option (List String) :=
  ((search (scopingHops joins) maxJoinHops (searchFuel joins) start goal).join).map
    fun hops => start :: hops.map Hop.target

def coverPairs (joins : List JoinDefinition) :
    List (String × String) → List String → Except Raised (List String)
  | [], cover => .ok cover
  | (left, right) :: pairs, cover =>
    match shortestPath joins left right with
    | none => .error (refused .noJoinPath)
    | some path => coverPairs joins pairs (cover ++ path)

/-- The scoping resolver: the required resources and every resource on the
chosen path between two of them. -/
def resolveJoinCover (joins : List JoinDefinition) (required : List String) :
    Except Raised (List String) :=
  match sortedSet required with
  | [] => .error (unexpressible "empty_join_cover")
  | [only] => .ok [only]
  | ordered =>
    match coverPairs joins (orderedPairs ordered) ordered with
    | .error raised => .error raised
    | .ok cover => .ok (sortedSet cover)

/-- One edge of the resolved join tree. -/
structure ResolvedJoin where
  fromResource : String
  toResource : String
  relationship : Relationship
  onSql : String
  optional : Bool := false
deriving DecidableEq

def ResolvedJoin.ofJoin (join : JoinDefinition) : ResolvedJoin :=
  ⟨join.fromResource, join.toResource, join.relationship, join.onSql, join.optional⟩

/-- The joins at a resource in declaration order, each with its far end. A join
from a resource to itself is listed twice. -/
def compilerHops (joins : List JoinDefinition) (current : String) :
    List (Hop String JoinDefinition) :=
  (joins.flatMap fun join =>
    (if join.fromResource = current then [join] else []) ++
      (if join.toResource = current then [join] else [])).map fun join =>
        ⟨if join.fromResource = current then join.toResource
          else join.fromResource, join⟩

def shortestJoinPath (joins : List JoinDefinition) (start goal : String) :
    Option (List ResolvedJoin) :=
  ((search (compilerHops joins) maxJoinHops (searchFuel joins) start goal).join).map
    fun hops => hops.map fun hop => .ofJoin hop.edge

/-- What makes two edges the same edge of the tree. -/
def ResolvedJoin.key (edge : ResolvedJoin) : String × String × String :=
  (edge.fromResource, edge.toResource, edge.onSql)

/-- Appends the edges of a path that the tree does not hold yet. -/
def addEdges : List ResolvedJoin → List ResolvedJoin → List ResolvedJoin
  | edges, [] => edges
  | edges, edge :: path =>
    if edge.key ∈ edges.map ResolvedJoin.key then
      addEdges edges path
    else
      addEdges (edges ++ [edge]) path

def treePairs (joins : List JoinDefinition) : List (String × String) → List ResolvedJoin →
      Except Raised (List ResolvedJoin)
  | [], edges => .ok edges
  | (left, right) :: pairs, edges =>
    match shortestJoinPath joins left right with
    | none => .error (refused .noJoinPath)
    | some path => treePairs joins pairs (addEdges edges path)

/-- The compiler's join tree over a list of resources. -/
def resolveJoinTree (joins : List JoinDefinition) (resources : List String) :
    Except Raised (List ResolvedJoin) :=
  if resources.length ≤ 1 then
    .ok []
  else
    treePairs joins (orderedPairs (resources.insertionSort (· ≤ ·))) []

variable {joins : List JoinDefinition} {left right middle : String}

theorem Adjacent.mem_endpoints (adjacent : Adjacent joins left right) :
    right ∈ endpoints joins := by
  obtain ⟨join, member, ends⟩ := adjacent
  refine List.mem_flatMap.mpr ⟨join, member, ?_⟩
  rcases ends with ⟨-, rfl⟩ | ⟨rfl, -⟩ <;> simp

theorem length_endpoints : (endpoints joins).length = 2 * joins.length := by
  simp [endpoints, length_flatMap, Nat.mul_comm]

variable {current : String}

theorem mem_scopingHops {hop : Hop String Unit} :
    hop ∈ scopingHops joins current ↔ Adjacent joins current hop.target := by
  obtain ⟨target, edge⟩ := hop
  simp only [scopingHops, mem_map, mem_sortedSet, mem_flatMap, mem_append, Adjacent]
  constructor
  · rintro ⟨_, ⟨join, member, from' | to'⟩, equal⟩
    · cases equal
      split at from'
      · rename_i start
        exact ⟨join, member, .inl ⟨start, (List.mem_singleton.mp from').symm⟩⟩
      · simp at from'
    · cases equal
      split at to'
      · rename_i start
        exact ⟨join, member, .inr ⟨(List.mem_singleton.mp to').symm, start⟩⟩
      · simp at to'
  · rintro ⟨join, member, ⟨from', to'⟩ | ⟨from', to'⟩⟩
    · exact ⟨target, ⟨join, member, .inl (by simp [from', to'])⟩, rfl⟩
    · exact ⟨target, ⟨join, member, .inr (by simp [from', to'])⟩, rfl⟩

/-- An edge that runs between two resources. -/
def Connects (edge : JoinDefinition) (left right : String) : Prop :=
  edge.fromResource = left ∧ edge.toResource = right ∨
    edge.fromResource = right ∧ edge.toResource = left

variable {hop : Hop String JoinDefinition}

theorem mem_compilerHops :
    hop ∈ compilerHops joins current → hop.edge ∈ joins ∧ Connects hop.edge current hop.target := by
  intro member
  simp only [compilerHops, mem_map, mem_flatMap, mem_append] at member
  obtain ⟨join, ⟨declared, mem, from' | to'⟩, rfl⟩ := member
  · split at from'
    · rename_i start
      obtain rfl : join = declared := by simpa using from'
      exact ⟨mem, .inl ⟨start, by simp [start]⟩⟩
    · simp at from'
  · split at to'
    · rename_i start
      obtain rfl : join = declared := by simpa using to'
      refine ⟨mem, ?_⟩
      by_cases same : join.fromResource = current
      · exact .inl ⟨same, by simp [same]⟩
      · exact .inr ⟨by simp [same], start⟩
    · simp at to'

theorem exists_compilerHops {target : String} (adjacent : Adjacent joins current target) :
    ∃ hop ∈ compilerHops joins current, hop.target = target := by
  obtain ⟨join, member, ends⟩ := adjacent
  simp only [compilerHops, mem_map, mem_flatMap, mem_append]
  refine ⟨_, ⟨join, ⟨join, member, ?_⟩, rfl⟩, ?_⟩
  · rcases ends with ⟨from', -⟩ | ⟨-, to'⟩
    · simp [from']
    · simp [to']
  · rcases ends with ⟨from', to'⟩ | ⟨from', to'⟩
    · simp [from', to']
    · by_cases same : join.fromResource = current
      · simp [← from', ← to', same]
      · rw [if_neg same, from']

theorem adjacent_of_mem_compilerHops (member : hop ∈ compilerHops joins current) :
    Adjacent joins current hop.target :=
  ⟨hop.edge, mem_compilerHops member⟩

/-- A neighbour list in which exactly the adjacent resources are targets. -/
def Lists {Edge : Type} (joins : List JoinDefinition)
    (hops : String → List (Hop String Edge)) : Prop :=
  ∀ current target, (∃ hop ∈ hops current, hop.target = target) ↔ Adjacent joins current target

theorem scopingHops_lists (joins : List JoinDefinition) : Lists joins (scopingHops joins) := by
  intro current target
  constructor
  · rintro ⟨hop, member, rfl⟩
    exact mem_scopingHops.mp member
  · intro adjacent
    exact ⟨⟨target, ()⟩, mem_scopingHops.mpr adjacent, rfl⟩

theorem compilerHops_lists (joins : List JoinDefinition) : Lists joins (compilerHops joins) := by
  intro current target
  constructor
  · rintro ⟨hop, member, rfl⟩
    exact adjacent_of_mem_compilerHops member
  · exact exists_compilerHops

section Lists

variable {Edge : Type} {hops : String → List (Hop String Edge)}

theorem Lists.search_eq (lists : Lists joins hops) (start goal : String) :
    search hops maxJoinHops (searchFuel joins) start goal = some (twoHop hops start goal) := by
  refine search_two_eq_twoHop (endpoints joins) ?_ ?_
  · intro node hop member
    exact Adjacent.mem_endpoints ((lists node hop.target).mp ⟨hop, member, rfl⟩)
  · rw [length_endpoints, searchFuel]
    omega

def firstMiddle (joins : List JoinDefinition)
    (hops : String → List (Hop String Edge)) (left right : String) :
    Option (Hop String Edge) :=
  (hops left).find? fun hop => Adjacent joins hop.target right

variable (lists : Lists joins hops)
include lists

theorem Lists.find?_isSome_iff :
    ((hops left).find? fun hop => hop.target = right).isSome ↔ Adjacent joins left right := by
  simp only [List.find?_isSome, decide_eq_true_eq]
  exact lists left right

theorem Lists.continuation_isSome_iff {first : Hop String Edge} :
    (continuation hops right first).isSome ↔ Adjacent joins first.target right := by
  rw [continuation, Option.isSome_map]
  exact lists.find?_isSome_iff

theorem Lists.twoHop_of_adjacent (away : left ≠ right) (adjacent : Adjacent joins left right) :
    ∃ hop ∈ hops left, hop.target = right ∧ twoHop hops left right = some [hop] := by
  obtain ⟨hop, first⟩ := Option.isSome_iff_exists.mp (lists.find?_isSome_iff.mpr adjacent)
  refine ⟨hop, mem_of_find?_eq_some first, ?_, twoHop_of_direct away first⟩
  simpa using List.find?_some first

/-- Between resources that are not adjacent the path goes through the first
middle, and there is no path without one. -/
theorem Lists.twoHop_of_not_adjacent (away : left ≠ right) (apart : ¬Adjacent joins left right) :
    (firstMiddle joins hops left right = none ∧ twoHop hops left right = none) ∨
      ∃ first, firstMiddle joins hops left right = some first ∧
        ∃ second ∈ hops first.target, second.target = right ∧
          twoHop hops left right = some [first, second] := by
  have direct : ∀ hop ∈ hops left, hop.target ≠ right := by
    rintro hop member rfl
    exact apart ((lists left hop.target).mp ⟨hop, member, rfl⟩)
  have sameMiddle : ((hops left).find? fun first =>
      (continuation hops right first).isSome) = firstMiddle joins hops left right := by
    rw [firstMiddle]
    congr 1
    funext first
    rw [Bool.eq_iff_iff, lists.continuation_isSome_iff, decide_eq_true_eq]
  rw [twoHop_of_no_direct away direct, sameMiddle]
  cases found : firstMiddle joins hops left right with
  | none => exact .inl ⟨rfl, rfl⟩
  | some first =>
    right
    have joined : Adjacent joins first.target right := by
      simpa using List.find?_some found
    obtain ⟨second, second?⟩ := Option.isSome_iff_exists.mp (lists.find?_isSome_iff.mpr joined)
    refine ⟨first, rfl, second, mem_of_find?_eq_some second?, ?_, ?_⟩
    · simpa using List.find?_some second?
    · simp [continuation, second?]

end Lists

/-- The alphabetically first common neighbour of two resources. -/
def leastMiddle (joins : List JoinDefinition) (left right : String) : Option String :=
  (firstMiddle joins (scopingHops joins) left right).map Hop.target

/-- The common neighbour of two resources that the joins of the left one
declare first. -/
def firstDeclaredMiddle (joins : List JoinDefinition) (left right : String) : Option String :=
  (firstMiddle joins (compilerHops joins) left right).map Hop.target

/-- The path the scoping resolver picks between two distinct resources. -/
theorem shortestPath_eq (away : left ≠ right) : shortestPath joins left right =
      if Adjacent joins left right then
        some [left, right]
      else
        (leastMiddle joins left right).map fun middle =>
          [left, middle, right] := by
  have lists := scopingHops_lists joins
  rw [shortestPath, lists.search_eq, Option.join_some]
  split
  · rename_i adjacent
    obtain ⟨hop, -, atRight, equal⟩ := lists.twoHop_of_adjacent away adjacent
    simp [equal, atRight]
  · rename_i apart
    rw [leastMiddle]
    rcases lists.twoHop_of_not_adjacent away apart with
      ⟨noMiddle, equal⟩ | ⟨first, found, second, -, atRight, equal⟩
    · simp [noMiddle, equal]
    · simp [found, equal, atRight]

/-- The edges the compiler picks between two distinct resources. -/
theorem shortestJoinPath_spec (joins : List JoinDefinition) (away : left ≠ right) :
    (Adjacent joins left right ∧ ∃ edge, Connects edge left right ∧
        shortestJoinPath joins left right = some [.ofJoin edge]) ∨
      (¬Adjacent joins left right ∧ firstDeclaredMiddle joins left right = none ∧
          shortestJoinPath joins left right = none) ∨
      (¬Adjacent joins left right ∧ ∃ middle first second,
        firstDeclaredMiddle joins left right = some middle ∧
          Connects first left middle ∧ Connects second middle right ∧
            shortestJoinPath joins left right = some [.ofJoin first, .ofJoin second]) := by
  have lists := compilerHops_lists joins
  rw [shortestJoinPath, lists.search_eq, Option.join_some]
  by_cases adjacent : Adjacent joins left right
  · left
    obtain ⟨hop, member, rfl, equal⟩ := lists.twoHop_of_adjacent away adjacent
    exact ⟨adjacent, hop.edge, (mem_compilerHops member).2, by simp [equal]⟩
  · right
    rcases lists.twoHop_of_not_adjacent away adjacent with
      ⟨noMiddle, equal⟩ | ⟨first, found, second, member, rfl, equal⟩
    · left
      exact ⟨adjacent, by simp [firstDeclaredMiddle, noMiddle], by simp [equal]⟩
    · right
      refine ⟨adjacent, first.target, first.edge, second.edge, ?_, ?_, ?_, ?_⟩
      · simp [firstDeclaredMiddle, found]
      · exact (mem_compilerHops (mem_of_find?_eq_some found)).2
      · exact (mem_compilerHops member).2
      · simp [equal]

theorem mem_orderedPairs {items : List String} (sorted : items.Pairwise (· < ·)) :
    (left, right) ∈ orderedPairs items ↔ left ∈ items ∧ right ∈ items ∧ left < right := by
  induction items with
  | nil => simp [orderedPairs]
  | cons item items ih =>
    obtain ⟨below, rest⟩ := List.pairwise_cons.mp sorted
    simp only [orderedPairs, mem_append, mem_map, Prod.mk.injEq, ih rest, mem_cons]
    constructor
    · rintro (⟨later, member, rfl, rfl⟩ | ⟨leftIn, rightIn, less⟩)
      · exact ⟨.inl rfl, .inr member, below _ member⟩
      · exact ⟨.inr leftIn, .inr rightIn, less⟩
    · rintro ⟨rfl | leftIn, rfl | rightIn, less⟩
      · exact absurd less (lt_irrefl _)
      · exact .inl ⟨right, rightIn, rfl, rfl⟩
      · exact absurd (below _ leftIn) less.asymm
      · exact .inr ⟨leftIn, rightIn, less⟩

variable {pairs : List (String × String)}

theorem coverPairs_eq_ok {cover result : List String}
    (resolved : coverPairs joins pairs cover = .ok result) :
    (∀ pair ∈ pairs, (shortestPath joins pair.1 pair.2).isSome) ∧ ∀ name, name ∈ result ↔
        name ∈ cover ∨ ∃ pair ∈ pairs, ∃ path,
          shortestPath joins pair.1 pair.2 = some path ∧ name ∈ path := by
  induction pairs generalizing cover with
  | nil =>
    cases resolved
    simp
  | cons pair pairs ih =>
    obtain ⟨first, second⟩ := pair
    rw [coverPairs] at resolved
    cases found : shortestPath joins first second with
    | none => simp [found] at resolved
    | some path =>
      rw [found] at resolved
      obtain ⟨rest, members⟩ := ih resolved
      constructor
      · intro pair member
        rcases List.mem_cons.mp member with rfl | later
        · simp [found]
        · exact rest pair later
      · intro name
        rw [members name]
        simp [found, or_assoc]

theorem resolveJoinCover_of_ne_nil {required : List String} (nonempty : required ≠ []) :
    resolveJoinCover joins required = (coverPairs joins (orderedPairs (sortedSet required))
        (sortedSet required)).map sortedSet := by
  obtain ⟨name, member⟩ := exists_mem_of_ne_nil required nonempty
  rw [resolveJoinCover]
  split
  · rename_i empty
    rw [← mem_sortedSet, empty] at member
    cases member
  · rename_i only single
    have alone : sortedSet [only] = [only] := rfl
    simp [single, orderedPairs, coverPairs, Except.map, alone]
  · cases coverPairs joins (orderedPairs (sortedSet required)) (sortedSet required) with
    | error raised => rfl
    | ok cover => rfl

theorem resolveJoinCover_eq_ok {required cover : List String}
    (authorized : resolveJoinCover joins required = .ok cover) :
    cover.Pairwise (· < ·) ∧ (∀ left ∈ required, ∀ right ∈ required, left < right →
        (shortestPath joins left right).isSome) ∧
      ∀ name, name ∈ cover ↔ name ∈ required ∨
        ∃ left ∈ required, ∃ right ∈ required, left < right ∧ ∃ path,
          shortestPath joins left right = some path ∧ name ∈ path := by
  have nonempty : required ≠ [] := by
    rintro rfl
    cases authorized
  rw [resolveJoinCover_of_ne_nil nonempty, map_eq_ok] at authorized
  obtain ⟨found, resolved, rfl⟩ := authorized
  obtain ⟨paths, members⟩ := coverPairs_eq_ok resolved
  have pairIff (left right : String) : (left, right) ∈ orderedPairs (sortedSet required) ↔
        left ∈ required ∧ right ∈ required ∧ left < right := by
    simpa [mem_sortedSet] using mem_orderedPairs (pairwise_sortedSet required)
  refine ⟨pairwise_sortedSet found, ?_, ?_⟩
  · intro left leftIn right rightIn less
    exact paths (left, right) ((pairIff left right).mpr ⟨leftIn, rightIn, less⟩)
  · intro name
    rw [mem_sortedSet, members name, mem_sortedSet]
    apply or_congr_right
    constructor
    · rintro ⟨⟨left, right⟩, member, path, isPath, onPath⟩
      obtain ⟨leftIn, rightIn, less⟩ := (pairIff left right).mp member
      exact ⟨left, leftIn, right, rightIn, less, path, isPath, onPath⟩
    · rintro ⟨left, leftIn, right, rightIn, less, path, isPath, onPath⟩
      exact ⟨(left, right), (pairIff left right).mpr ⟨leftIn, rightIn, less⟩, path, isPath, onPath⟩

variable {edges path : List ResolvedJoin} {edge : ResolvedJoin}

theorem mem_addEdges : edge ∈ addEdges edges path → edge ∈ edges ∨ edge ∈ path := by
  induction path generalizing edges with
  | nil => exact .inl
  | cons first path ih =>
    rw [addEdges]
    split
    · intro member
      exact (ih member).imp_right (mem_cons_of_mem _)
    · intro member
      rcases ih member with old | new
      · rcases List.mem_append.mp old with old | only
        · exact .inl old
        · exact .inr (by simp [List.mem_singleton.mp only])
      · exact .inr (mem_cons_of_mem _ new)

theorem mem_addEdges_of_mem (member : edge ∈ edges) : edge ∈ addEdges edges path := by
  induction path generalizing edges with
  | nil => exact member
  | cons first path ih =>
    rw [addEdges]
    split
    · exact ih member
    · exact ih (mem_append_left _ member)

theorem key_mem_addEdges (member : edge ∈ edges ∨ edge ∈ path) :
    edge.key ∈ (addEdges edges path).map ResolvedJoin.key := by
  induction path generalizing edges with
  | nil =>
    rcases member with old | new
    · exact mem_map_of_mem old
    · cases new
  | cons first path ih =>
    rw [addEdges]
    split
    · rename_i known
      rcases member with old | new
      · exact ih (.inl old)
      · rcases List.mem_cons.mp new with rfl | later
        · obtain ⟨twin, twinIn, sameKey⟩ := List.mem_map.mp known
          rw [← sameKey]
          exact mem_map_of_mem (mem_addEdges_of_mem twinIn)
        · exact ih (.inr later)
    · apply ih
      rcases member with old | new
      · exact .inl (mem_append_left _ old)
      · rcases List.mem_cons.mp new with rfl | later
        · exact .inl (by simp)
        · exact .inr later

theorem resolveJoinTree_eq (resources : List String) : resolveJoinTree joins resources =
      treePairs joins (orderedPairs (resources.insertionSort (· ≤ ·))) [] := by
  rw [resolveJoinTree]
  split
  · match resources with
    | [] => rfl
    | [only] => rfl
    | first :: second :: rest =>
      rename_i short
      simp at short
  · rfl

theorem treePairs_eq_ok {result : List ResolvedJoin}
    (resolved : treePairs joins pairs edges = .ok result) :
    (∀ pair ∈ pairs, (shortestJoinPath joins pair.1 pair.2).isSome) ∧
      (∀ edge ∈ result, edge ∈ edges ∨ ∃ pair ∈ pairs, ∃ path,
        shortestJoinPath joins pair.1 pair.2 = some path ∧ edge ∈ path) ∧
      (∀ edge ∈ edges, edge ∈ result) ∧
      ∀ pair ∈ pairs, ∀ path, shortestJoinPath joins pair.1 pair.2 = some path →
          ∀ edge ∈ path, edge.key ∈ result.map ResolvedJoin.key := by
  induction pairs generalizing edges with
  | nil =>
    cases resolved
    simp
  | cons pair pairs ih =>
    obtain ⟨first, second⟩ := pair
    rw [treePairs] at resolved
    cases found : shortestJoinPath joins first second with
    | none => simp [found] at resolved
    | some path =>
      rw [found] at resolved
      obtain ⟨paths, origin, kept, held⟩ := ih resolved
      refine ⟨?_, ?_, ?_, ?_⟩
      · intro pair member
        rcases List.mem_cons.mp member with rfl | later
        · simp [found]
        · exact paths pair later
      · intro edge member
        rcases origin edge member with added | ⟨pair, later, rest⟩
        · rcases mem_addEdges added with old | new
          · exact .inl old
          · exact .inr ⟨_, mem_cons_self, path, found, new⟩
        · exact .inr ⟨pair, mem_cons_of_mem _ later, rest⟩
      · intro edge member
        exact kept edge (mem_addEdges_of_mem member)
      · intro pair member path' found' edge onPath
        rcases List.mem_cons.mp member with rfl | later
        · obtain rfl : path = path' := by
            simpa [found] using found'
          have added : edge.key ∈ (addEdges edges path).map ResolvedJoin.key :=
            key_mem_addEdges (.inr onPath)
          obtain ⟨twin, twinIn, sameKey⟩ := List.mem_map.mp added
          exact List.mem_map.mpr ⟨twin, kept twin twinIn, sameKey⟩
        · exact held pair later path' found' edge onPath

theorem treePairs_isOk (edges : List ResolvedJoin)
    (paths : ∀ pair ∈ pairs, (shortestJoinPath joins pair.1 pair.2).isSome) :
    ∃ result, treePairs joins pairs edges = .ok result := by
  induction pairs generalizing edges with
  | nil => exact ⟨edges, rfl⟩
  | cons pair pairs ih =>
    obtain ⟨path, found⟩ := Option.isSome_iff_exists.mp (paths pair mem_cons_self)
    rw [treePairs, found]
    apply ih
    intro later member
    exact paths later (mem_cons_of_mem _ member)

end McpAssistant.BusinessQuery.JoinSearch
