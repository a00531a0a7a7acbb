import Mathlib.Data.List.Nodup
import Mathlib.Logic.Relation

/-!
# Declarations in order

Items are declared one after the other under names, and refer to each other by name.
Where each refers only to items declared before it, no chain of references comes back to
where it began.
-/

namespace McpAssistant.Foundations.Declarations

open List

variable {Item Name : Type} (name : Item → Name) (references : Item → List Name) (items : List Item)

/-- No name is declared twice, and each reference names an item declared before. -/
structure InOrder : Prop where
  unique : (items.map name).Nodup
  earlier : ∀ before item after, items = before ++ item :: after →
    ∀ reference ∈ references item, reference ∈ before.map name

def Refers (first second : Name) : Prop :=
  ∃ item ∈ items, name item = first ∧ second ∈ references item

variable {name references items} [DecidableEq Name]

theorem InOrder.idxOf_lt (inOrder : InOrder name references items)
    {first second : Name} (refers : Refers name references items first second) :
    (items.map name).idxOf second < (items.map name).idxOf first := by
  obtain ⟨item, member, rfl, inReferences⟩ := refers
  obtain ⟨before, after, rfl⟩ := append_of_mem member
  have earlier := inOrder.earlier before item after rfl second inReferences
  have notEarlier : name item ∉ before.map name := by
    intro again
    have unique := inOrder.unique
    rw [map_append, nodup_append] at unique
    exact unique.2.2 _ again _ (mem_cons_self) rfl
  rw [map_append, idxOf_append_of_mem earlier, idxOf_append_of_notMem notEarlier]
  have inside := idxOf_lt_length_of_mem earlier
  omega

/-- No chain of references leads from a name to itself. -/
theorem InOrder.acyclic (inOrder : InOrder name references items) (first : Name) :
    ¬Relation.TransGen (Refers name references items) first first := by
  intro chain
  have descends : ∀ {second : Name}, Relation.TransGen (Refers name references items) first second →
        (items.map name).idxOf second < (items.map name).idxOf first := by
    intro second chain
    induction chain with
    | single refers => exact inOrder.idxOf_lt refers
    | tail _ refers ih => exact Nat.lt_trans (inOrder.idxOf_lt refers) ih
  exact Nat.lt_irrefl _ (descends chain)

end McpAssistant.Foundations.Declarations
