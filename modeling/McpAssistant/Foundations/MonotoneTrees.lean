import Mathlib.Data.List.Basic

/-!
# Trees of conditions without negation

A tree nests groups: all of its conjuncts must hold and, where there are
alternatives, one of them.  Atoms are opaque.  To satisfy a tree is to choose an
alternative of every group on the way and to satisfy the atoms met; so one tree
implies another, whatever its atoms mean, exactly when every such choice
satisfies the other tree.
-/

namespace McpAssistant.Foundations.MonotoneTrees

open List

inductive Conditions (Atom : Type) where
  | atom (atom : Atom)
  | group (all any : List (Conditions Atom))

variable {Atom : Type}

section Meaning

variable (holds : Atom → Prop)

mutual

def Conditions.Holds : Conditions Atom → Prop
  | .atom atom => holds atom
  | .group all any => HoldAll all ∧ HoldsAny any

def HoldAll : List (Conditions Atom) → Prop
  | [] => True
  | tree :: trees => tree.Holds ∧ HoldAll trees

/-- One of the alternatives, when there are any. -/
def HoldsAny : List (Conditions Atom) → Prop
  | [] => True
  | tree :: trees => tree.Holds ∨ HoldsOneOf trees

def HoldsOneOf : List (Conditions Atom) → Prop
  | [] => False
  | tree :: trees => tree.Holds ∨ HoldsOneOf trees

end

theorem holdAll_iff (trees : List (Conditions Atom)) :
    HoldAll holds trees ↔ ∀ tree ∈ trees, tree.Holds holds := by
  induction trees with
  | nil => simp [HoldAll]
  | cons tree trees rest =>
    rw [HoldAll, rest, forall_mem_cons]

theorem holdsOneOf_iff (trees : List (Conditions Atom)) :
    HoldsOneOf holds trees ↔ ∃ tree ∈ trees, tree.Holds holds := by
  induction trees with
  | nil => simp [HoldsOneOf]
  | cons tree trees rest =>
    rw [HoldsOneOf, rest, exists_mem_cons_iff]

theorem holdsAny_iff (trees : List (Conditions Atom)) :
    HoldsAny holds trees ↔ trees = [] ∨ ∃ tree ∈ trees, tree.Holds holds := by
  cases trees with
  | nil => simp [HoldsAny]
  | cons tree trees =>
    rw [HoldsAny, holdsOneOf_iff, exists_mem_cons_iff]
    simp

theorem group_holds_iff (all any : List (Conditions Atom)) :
    (Conditions.group all any).Holds holds ↔ (∀ tree ∈ all, tree.Holds holds) ∧
        (any = [] ∨ ∃ tree ∈ any, tree.Holds holds) := by
  rw [Conditions.Holds, holdAll_iff, holdsAny_iff]

end Meaning

def both (first second : List (List Atom)) : List (List Atom) :=
  first.flatMap fun choice => second.map (choice ++ ·)

theorem mem_both {first second : List (List Atom)} {choice : List Atom} :
    choice ∈ both first second ↔ ∃ left ∈ first, ∃ right ∈ second, left ++ right = choice := by
  simp [both]

mutual

/-- The atoms met for each choice of alternatives. -/
def Conditions.choices : Conditions Atom → List (List Atom)
  | .atom atom => [[atom]]
  | .group all any => both (choicesOfAll all) (choicesOfAny any)

def choicesOfAll : List (Conditions Atom) → List (List Atom)
  | [] => [[]]
  | tree :: trees => both tree.choices (choicesOfAll trees)

def choicesOfAny : List (Conditions Atom) → List (List Atom)
  | [] => [[]]
  | tree :: trees => tree.choices ++ choicesOfOne trees

def choicesOfOne : List (Conditions Atom) → List (List Atom)
  | [] => []
  | tree :: trees => tree.choices ++ choicesOfOne trees

end

section Choices

variable {holds : Atom → Prop}

theorem exists_both {first second : List (List Atom)} :
    (∃ choice ∈ both first second, ∀ atom ∈ choice, holds atom) ↔
      (∃ choice ∈ first, ∀ atom ∈ choice, holds atom) ∧
        ∃ choice ∈ second, ∀ atom ∈ choice, holds atom := by
  constructor
  · rintro ⟨choice, member, met⟩
    rcases mem_both.mp member with ⟨left, isLeft, right, isRight, rfl⟩
    rw [forall_mem_append] at met
    exact ⟨⟨left, isLeft, met.1⟩, right, isRight, met.2⟩
  · rintro ⟨⟨left, isLeft, metLeft⟩, right, isRight, metRight⟩
    refine ⟨left ++ right, mem_both.mpr ⟨left, isLeft, right, isRight, rfl⟩, ?_⟩
    exact List.forall_mem_append.mpr ⟨metLeft, metRight⟩

theorem exists_append {first second : List (List Atom)} :
    (∃ choice ∈ first ++ second, ∀ atom ∈ choice, holds atom) ↔
      (∃ choice ∈ first, ∀ atom ∈ choice, holds atom) ∨
        ∃ choice ∈ second, ∀ atom ∈ choice, holds atom := by
  constructor
  · rintro ⟨choice, member, met⟩
    rcases List.mem_append.mp member with left | right
    · exact .inl ⟨choice, left, met⟩
    · exact .inr ⟨choice, right, met⟩
  · rintro (⟨choice, member, met⟩ | ⟨choice, member, met⟩)
    · exact ⟨choice, mem_append_left _ member, met⟩
    · exact ⟨choice, mem_append_right _ member, met⟩

theorem exists_empty : ∃ choice ∈ [([] : List Atom)], ∀ atom ∈ choice, holds atom :=
  ⟨[], mem_cons_self, forall_mem_nil _⟩

mutual

theorem Conditions.holds_iff : ∀ tree : Conditions Atom,
    tree.Holds holds ↔ ∃ choice ∈ tree.choices, ∀ atom ∈ choice, holds atom
  | .atom atom => by
      rw [Conditions.Holds, Conditions.choices]
      simp
  | .group all any => by
      rw [Conditions.Holds, Conditions.choices, exists_both, holdAll_choices all, holdsAny_choices any]

theorem holdAll_choices : ∀ trees : List (Conditions Atom),
    HoldAll holds trees ↔ ∃ choice ∈ choicesOfAll trees, ∀ atom ∈ choice, holds atom
  | [] => by
      rw [HoldAll, choicesOfAll]
      exact ⟨fun _ => exists_empty, fun _ => trivial⟩
  | tree :: trees => by
      rw [HoldAll, choicesOfAll, exists_both, tree.holds_iff, holdAll_choices trees]

theorem holdsAny_choices : ∀ trees : List (Conditions Atom),
    HoldsAny holds trees ↔ ∃ choice ∈ choicesOfAny trees, ∀ atom ∈ choice, holds atom
  | [] => by
      rw [HoldsAny, choicesOfAny]
      exact ⟨fun _ => exists_empty, fun _ => trivial⟩
  | tree :: trees => by
      rw [HoldsAny, choicesOfAny, exists_append, tree.holds_iff, holdsOneOf_choices trees]

theorem holdsOneOf_choices : ∀ trees : List (Conditions Atom),
    HoldsOneOf holds trees ↔ ∃ choice ∈ choicesOfOne trees, ∀ atom ∈ choice, holds atom
  | [] => by
      rw [HoldsOneOf, choicesOfOne]
      simp
  | tree :: trees => by
      rw [HoldsOneOf, choicesOfOne, exists_append, tree.holds_iff, holdsOneOf_choices trees]

end

end Choices

theorem implies_iff {condition : (Atom → Prop) → Prop}
    (grows : ∀ few many : Atom → Prop, (∀ atom, few atom → many atom) →
      condition few → condition many) (tree : Conditions Atom) :
    (∀ holds : Atom → Prop, tree.Holds holds → condition holds) ↔
      ∀ choice ∈ tree.choices, condition (· ∈ choice) := by
  constructor
  · intro implied choice member
    apply implied
    apply tree.holds_iff.mpr
    exact ⟨choice, member, fun _ inside => inside⟩
  · intro covered holds met
    rcases tree.holds_iff.mp met with ⟨choice, member, all⟩
    exact grows _ holds all (covered choice member)

theorem Conditions.holds_mono {few many : Atom → Prop} (more : ∀ atom, few atom → many atom)
    (tree : Conditions Atom) (met : tree.Holds few) : tree.Holds many := by
  rcases tree.holds_iff.mp met with ⟨choice, member, all⟩
  exact tree.holds_iff.mpr ⟨choice, member, fun atom inside => more atom (all atom inside)⟩

end McpAssistant.Foundations.MonotoneTrees
