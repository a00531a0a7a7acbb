import McpAssistant.BusinessQuery.JoinSearch

/-!
# Do the two join searches agree?

The scoping resolver forces predicates on the resources of its own cover.  The
compiler then searches the joins again over that cover.  Between two resources
that no join connects, the scoping resolver goes through their alphabetically
first common neighbour and the compiler through the first declared one.

`joinSearchesAgree_iff` states exactly when the compiler's tree exists and
stays inside the cover.
-/

namespace McpAssistant.BusinessQuery.JoinAgreement

open Definitions JoinSearch

/-- The compiler's tree over a cover exists and no edge leaves the cover. -/
def TreeInside (joins : List JoinDefinition) (cover : List String) : Prop :=
  ∃ edges, resolveJoinTree joins cover = .ok edges ∧
    ∀ edge ∈ edges, edge.fromResource ∈ cover ∧ edge.toResource ∈ cover

/-- The resources the required ones bring along: themselves, and the
alphabetically first common neighbour of two that no join connects. -/
def Covered (joins : List JoinDefinition) (required : List String) (name : String) : Prop :=
  name ∈ required ∨ ∃ left ∈ required, ∃ right ∈ required, left < right ∧
      ¬Adjacent joins left right ∧ leastMiddle joins left right = some name

/-- Any two covered resources are joined directly, or their first declared
common neighbour is covered too. -/
def MiddlesCovered (joins : List JoinDefinition) (required : List String) : Prop :=
  ∀ left right, Covered joins required left → Covered joins required right →
    left < right → ¬Adjacent joins left right →
      ∃ middle, firstDeclaredMiddle joins left right = some middle ∧ Covered joins required middle

variable {joins : List JoinDefinition} {required cover : List String}

theorem mem_cover_iff (authorized : resolveJoinCover joins required = .ok cover) (name : String) :
    name ∈ cover ↔ Covered joins required name := by
  obtain ⟨-, -, members⟩ := resolveJoinCover_eq_ok authorized
  rw [members name, Covered]
  constructor
  · rintro (isRequired | ⟨left, leftIn, right, rightIn, less, path, isPath, onPath⟩)
    · exact .inl isRequired
    · rw [shortestPath_eq less.ne] at isPath
      split at isPath
      · cases isPath
        rcases List.mem_cons.mp onPath with rfl | last
        · exact .inl leftIn
        · exact .inl (List.mem_singleton.mp last ▸ rightIn)
      · rename_i apart
        obtain ⟨middle, found, rfl⟩ := Option.map_eq_some_iff.mp isPath
        simp only [List.mem_cons, List.not_mem_nil, or_false] at onPath
        rcases onPath with rfl | rfl | rfl
        · exact .inl leftIn
        · exact .inr ⟨left, leftIn, right, rightIn, less, apart, found⟩
        · exact .inl rightIn
  · rintro (isRequired | ⟨left, leftIn, right, rightIn, less, apart, found⟩)
    · exact .inl isRequired
    · right
      refine ⟨left, leftIn, right, rightIn, less, [left, name, right], ?_, by simp⟩
      rw [shortestPath_eq less.ne, if_neg apart, found]
      rfl

theorem treeInside_iff (sorted : cover.Pairwise (· < ·)) : TreeInside joins cover ↔
      ∀ left ∈ cover, ∀ right ∈ cover, left < right → ¬Adjacent joins left right →
          ∃ middle, firstDeclaredMiddle joins left right = some middle ∧ middle ∈ cover := by
  have unchanged : cover.insertionSort (· ≤ ·) = cover := (sorted.imp le_of_lt).insertionSort_eq
  rw [TreeInside, resolveJoinTree_eq, unchanged]
  constructor
  · rintro ⟨edges, resolved, inside⟩ left leftIn right rightIn less apart
    obtain ⟨paths, -, -, held⟩ := treePairs_eq_ok resolved
    have isPair : (left, right) ∈ orderedPairs cover :=
      (mem_orderedPairs sorted).mpr ⟨leftIn, rightIn, less⟩
    have keyInside : ∀ edge : ResolvedJoin, edge.key ∈ edges.map ResolvedJoin.key →
          edge.fromResource ∈ cover ∧ edge.toResource ∈ cover := by
      intro edge member
      obtain ⟨twin, twinIn, sameKey⟩ := List.mem_map.mp member
      simp only [ResolvedJoin.key, Prod.mk.injEq] at sameKey
      rw [← sameKey.1, ← sameKey.2.1]
      exact inside twin twinIn
    rcases shortestJoinPath_spec joins less.ne with
      ⟨adjacent, -⟩ | ⟨-, -, noPath⟩ | ⟨-, middle, first, second, found, connects, -, isPath⟩
    · exact absurd adjacent apart
    · have somePath := paths _ isPair
      simp [noPath] at somePath
    · refine ⟨middle, found, ?_⟩
      have ends := keyInside _ (held _ isPair _ isPath (.ofJoin first) List.mem_cons_self)
      rcases connects with ⟨-, to'⟩ | ⟨from', -⟩
      · exact to' ▸ ends.2
      · exact from' ▸ ends.1
  · intro middles
    have paths : ∀ pair ∈ orderedPairs cover, (shortestJoinPath joins pair.1 pair.2).isSome := by
      rintro ⟨left, right⟩ member
      obtain ⟨leftIn, rightIn, less⟩ := (mem_orderedPairs sorted).mp member
      rcases shortestJoinPath_spec joins less.ne with
        ⟨-, edge, -, isPath⟩ | ⟨apart, noMiddle, -⟩ | ⟨-, middle, first, second, -, -, -, isPath⟩
      · simp [isPath]
      · obtain ⟨middle, found, -⟩ := middles left leftIn right rightIn less apart
        simp [noMiddle] at found
      · simp [isPath]
    obtain ⟨edges, resolved⟩ := treePairs_isOk [] paths
    refine ⟨edges, resolved, ?_⟩
    intro edge member
    rcases (treePairs_eq_ok resolved).2.1 edge member with
      old | ⟨⟨left, right⟩, isPair, path, isPath, onPath⟩
    · cases old
    · obtain ⟨leftIn, rightIn, less⟩ := (mem_orderedPairs sorted).mp isPair
      have connected (source : JoinDefinition) {first second : String}
          (connects : Connects source first second) (firstIn : first ∈ cover)
          (secondIn : second ∈ cover) :
          (ResolvedJoin.ofJoin source).fromResource ∈ cover ∧
            (ResolvedJoin.ofJoin source).toResource ∈ cover := by
        show source.fromResource ∈ cover ∧ source.toResource ∈ cover
        rcases connects with ⟨from', to'⟩ | ⟨from', to'⟩
        · exact ⟨from' ▸ firstIn, to' ▸ secondIn⟩
        · exact ⟨from' ▸ secondIn, to' ▸ firstIn⟩
      rcases shortestJoinPath_spec joins less.ne with
        ⟨-, direct, connects, isPath'⟩ | ⟨-, -, noPath⟩ |
          ⟨apart, middle, first, second, found, firstEnds, secondEnds, isPath'⟩
      · rw [isPath'] at isPath
        cases isPath
        rw [List.mem_singleton.mp onPath]
        exact connected direct connects leftIn rightIn
      · rw [noPath] at isPath
        cases isPath
      · rw [isPath'] at isPath
        cases isPath
        obtain ⟨middle', found', middleIn⟩ := middles left leftIn right rightIn less apart
        obtain rfl : middle = middle' := by simpa [found] using found'
        rcases List.mem_cons.mp onPath with rfl | last
        · exact connected first firstEnds leftIn middleIn
        · rw [List.mem_singleton.mp last]
          exact connected second secondEnds middleIn rightIn

/-- Whenever the scoping resolver succeeds, the compiler's tree exists inside
the cover exactly when the covered resources hold every first declared middle
they need. -/
theorem joinSearchesAgree_iff (authorized : resolveJoinCover joins required = .ok cover) :
    TreeInside joins cover ↔ MiddlesCovered joins required := by
  rw [treeInside_iff (resolveJoinCover_eq_ok authorized).1]
  have members := mem_cover_iff authorized
  simp only [members, MiddlesCovered]
  constructor
  · intro inside left right leftIn rightIn less apart
    exact inside left leftIn right rightIn less apart
  · intro middles left leftIn right rightIn less apart
    exact middles left right leftIn rightIn less apart

/-- Five joins of a bundle in its declaration order: a job and a quotation both
belong to a customer and, optionally, to a customer order. -/
def orderJoins : List JoinDefinition :=
  [⟨"customer", "customer_order", .oneToMany, "id = customer_id", false⟩,
    ⟨"customer_order", "job", .oneToMany, "id = customer_order_id", true⟩,
    ⟨"customer", "job", .oneToMany, "id = customer_id", false⟩,
    ⟨"customer", "quotation", .oneToMany, "id = customer_id", true⟩,
    ⟨"customer_order", "quotation", .oneToMany, "id = customer_order_id", true⟩]

theorem resolveJoinCover_orderJoins : resolveJoinCover orderJoins ["job", "quotation"] =
      .ok ["customer", "job", "quotation"] := by
  decide

/-- The agreement theorem applies to a plan over jobs and quotations. -/
theorem joinSearchesAgree_iff_orderJoins :
    TreeInside orderJoins ["customer", "job", "quotation"] ↔
      MiddlesCovered orderJoins ["job", "quotation"] :=
  joinSearchesAgree_iff resolveJoinCover_orderJoins

/-- A plan over jobs and quotations is scoped through the customer, but the
compiler joins them through the customer order, which the cover lacks. -/
theorem joinSearches_disagree :
    resolveJoinCover orderJoins ["job", "quotation"] =
        .ok ["customer", "job", "quotation"] ∧
      ¬TreeInside orderJoins ["customer", "job", "quotation"] := by
  constructor
  · exact resolveJoinCover_orderJoins
  · rintro ⟨edges, resolved, inside⟩
    have compiled : resolveJoinTree orderJoins ["customer", "job", "quotation"] =
        .ok [⟨"customer", "job", .oneToMany, "id = customer_id", false⟩,
          ⟨"customer", "quotation", .oneToMany, "id = customer_id", true⟩,
          ⟨"customer_order", "job", .oneToMany, "id = customer_order_id", true⟩,
          ⟨"customer_order", "quotation", .oneToMany, "id = customer_order_id",
            true⟩] := by
      decide
    rw [compiled] at resolved
    cases resolved
    have outside := (inside
      ⟨"customer_order", "job", .oneToMany, "id = customer_order_id", true⟩
      (by decide)).1
    revert outside
    decide

end McpAssistant.BusinessQuery.JoinAgreement
