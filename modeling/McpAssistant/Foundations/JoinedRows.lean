import Mathlib.Data.List.Nodup
import Mathlib.Logic.Function.Basic

/-!
# Joined rows

A query places its tables one after another: freely, or joined by a condition,
and then keeps the combinations a final condition is true of.
-/

namespace McpAssistant.Foundations.JoinedRows

variable {Name Row : Type} [DecidableEq Name]

/-- The row bound to each table; `none` where an outer join found no match. -/
abbrev Binding (Name Row : Type) := Name → Option Row

/-- One table taking its place. -/
inductive Placement (Name Row : Type) where
  | free (name : Name)
  | joined (name : Name) (fits : Binding Name Row → Row → Bool) (outer : Bool)

def Placement.name : Placement Name Row → Name
  | .free name => name
  | .joined name _ _ => name

def extend (tables : Name → List Row) (binding : Binding Name Row) :
    Placement Name Row → List (Binding Name Row)
  | .free name =>
    (tables name).map fun row => Function.update binding name (some row)
  | .joined name fits outer =>
    let matching := (tables name).filter (fits binding)
    if matching.isEmpty && outer then
      [Function.update binding name none]
    else
      matching.map fun row => Function.update binding name (some row)

def descend (tables : Name → List Row) :
    List (Placement Name Row) → Binding Name Row → List (Binding Name Row)
  | [], binding => [binding]
  | placement :: later, binding =>
    (extend tables binding placement).flatMap (descend tables later)

variable {tables : Name → List Row}

theorem eq_update_of_mem_extend {binding result : Binding Name Row} {placement : Placement Name Row}
    (member : result ∈ extend tables binding placement) :
    ∃ bound, result = Function.update binding placement.name bound := by
  cases placement with
  | free name =>
    obtain ⟨row, -, rfl⟩ := List.mem_map.mp member
    exact ⟨some row, rfl⟩
  | joined name fits outer =>
    simp only [extend] at member
    split at member
    · rw [List.mem_singleton.mp member]
      exact ⟨none, rfl⟩
    · obtain ⟨row, -, rfl⟩ := List.mem_map.mp member
      exact ⟨some row, rfl⟩

variable {placements : List (Placement Name Row)}

/-- Later placements leave an earlier table's row where it is. -/
theorem eq_of_mem_descend {binding result : Binding Name Row}
    (member : result ∈ descend tables placements binding) {name : Name}
    (elsewhere : name ∉ placements.map Placement.name) :
    result name = binding name := by
  induction placements generalizing binding with
  | nil => rw [List.mem_singleton.mp member]
  | cons placement later ih =>
    obtain ⟨middle, inMiddle, inLater⟩ := List.mem_flatMap.mp member
    rw [List.map_cons, List.mem_cons, not_or] at elsewhere
    rw [ih inLater elsewhere.2]
    obtain ⟨bound, rfl⟩ := eq_update_of_mem_extend inMiddle
    exact Function.update_of_ne elsewhere.1 _ _

theorem nodup_extend (rowsDistinct : ∀ name, (tables name).Nodup)
    (binding : Binding Name Row) (placement : Placement Name Row) :
    (extend tables binding placement).Nodup := by
  cases placement with
  | free name =>
    refine List.Nodup.map ?_ (rowsDistinct name)
    intro first second same
    exact Option.some.inj (Function.update_injective binding name same)
  | joined name fits outer =>
    simp only [extend]
    split
    · exact List.nodup_singleton _
    · refine List.Nodup.map ?_ ((rowsDistinct name).filter _)
      intro first second same
      exact Option.some.inj (Function.update_injective binding name same)

theorem nodup_descend (rowsDistinct : ∀ name, (tables name).Nodup) (binding : Binding Name Row)
    (distinct : (placements.map Placement.name).Nodup) :
    (descend tables placements binding).Nodup := by
  induction placements generalizing binding with
  | nil => exact List.nodup_singleton _
  | cons placement later ih =>
    rw [List.map_cons, List.nodup_cons] at distinct
    rw [descend, List.nodup_flatMap]
    refine ⟨fun middle _ => ih middle distinct.2, ?_⟩
    refine (nodup_extend rowsDistinct binding placement).imp_of_mem ?_
    intro first second firstIn secondIn differ result inFirst inSecond
    -- both bindings show at the table just placed
    apply differ
    obtain ⟨bound, rfl⟩ := eq_update_of_mem_extend firstIn
    obtain ⟨bound', rfl⟩ := eq_update_of_mem_extend secondIn
    have here := eq_of_mem_descend inFirst distinct.1
    rw [eq_of_mem_descend inSecond distinct.1, Function.update_self, Function.update_self] at here
    rw [here]

end McpAssistant.Foundations.JoinedRows
