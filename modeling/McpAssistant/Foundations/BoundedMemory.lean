import Mathlib.Data.List.DropRight

/-!
# Memories of bounded length

A memory keeps the newest entries of a growing list, as many as its bound allows.
What it keeps does not depend on when the older entries were dropped.
-/

namespace McpAssistant.Foundations.BoundedMemory

open List

variable {Entry Other : Type}

theorem map_rtake (said : Entry → Other) (entries : List Entry) (count : Nat) :
    (entries.rtake count).map said = (entries.map said).rtake count := by
  simp [List.rtake]

theorem length_rtake (entries : List Entry) (count : Nat) :
    (entries.rtake count).length = min count entries.length := by
  simp only [List.rtake, length_drop]
  omega

variable {count : Nat}

theorem rtake_of_length_le {entries : List Entry}
    (short : entries.length ≤ count) : entries.rtake count = entries := by
  simp [List.rtake, Nat.sub_eq_zero_of_le short]

variable {newer : List Entry}

theorem rtake_append_of_le (older : List Entry) (short : newer.length ≤ count) :
    (older ++ newer).rtake count = older.rtake (count - newer.length) ++ newer := by
  simp only [List.rtake, length_append, drop_append]
  have behind : older.length + newer.length - count - older.length = 0 := by
    omega
  have same : older.length + newer.length - count = older.length - (count - newer.length) := by
    omega
  rw [behind, same, drop_zero]

theorem rtake_append_of_ge (older : List Entry) (long : count ≤ newer.length) :
    (older ++ newer).rtake count = newer.rtake count := by
  simp only [List.rtake, length_append, drop_append]
  have gone : older.length ≤ older.length + newer.length - count := by
    omega
  have same : older.length + newer.length - count - older.length = newer.length - count := by
    omega
  rw [drop_eq_nil_of_le gone, nil_append, same]

theorem rtake_rtake (entries : List Entry) {fewer : Nat} (less : fewer ≤ count) :
    (entries.rtake count).rtake fewer = entries.rtake fewer := by
  simp only [List.rtake, length_drop, drop_drop]
  congr 1
  omega

/-- What was dropped early would have been dropped later. -/
theorem rtake_rtake_append (older newer : List Entry) {earlier : Nat}
    (enough : count ≤ earlier + newer.length) :
    (older.rtake earlier ++ newer).rtake count = (older ++ newer).rtake count := by
  by_cases short : newer.length ≤ count
  · rw [rtake_append_of_le _ short, rtake_append_of_le _ short, rtake_rtake]
    omega
  · have long : count ≤ newer.length := by
      omega
    rw [rtake_append_of_ge _ long, rtake_append_of_ge _ long]

/-- The newest entries, as many as a positive bound. -/
def trimmed (bound : Int) (entries : List Entry) : List Entry :=
  if 0 < bound then entries.rtake bound.toNat else entries

theorem trimmed_of_pos {bound : Int} (positive : 0 < bound) (entries : List Entry) :
    trimmed bound entries = entries.rtake bound.toNat :=
  if_pos positive

theorem trimmed_of_not_pos {bound : Int} (unbounded : ¬0 < bound)
    (entries : List Entry) : trimmed bound entries = entries :=
  if_neg unbounded

@[simp]
theorem trimmed_nil (bound : Int) : trimmed bound ([] : List Entry) = [] := by
  by_cases positive : 0 < bound
  · rw [trimmed_of_pos positive, rtake_nil]
  · rw [trimmed_of_not_pos positive]

theorem map_trimmed (said : Entry → Other) (bound : Int) (entries : List Entry) :
    (trimmed bound entries).map said = trimmed bound (entries.map said) := by
  by_cases positive : 0 < bound
  · simp only [trimmed_of_pos positive, map_rtake]
  · simp only [trimmed_of_not_pos positive]

/-- Trimming after each addition trims as once at the end. -/
theorem trimmed_trimmed_append (bound : Int) (older newer : List Entry) :
    trimmed bound (trimmed bound older ++ newer) = trimmed bound (older ++ newer) := by
  by_cases positive : 0 < bound
  · simp only [trimmed_of_pos positive]
    exact rtake_rtake_append older newer (Nat.le_add_right _ _)
  · simp only [trimmed_of_not_pos positive]

theorem exists_trimmed_append (bound : Int) (older : List Entry) {latest : List Entry}
    (whole : latest.length ≤ (trimmed bound (older ++ latest)).length) :
    ∃ rest, trimmed bound (older ++ latest) = rest ++ latest ∧
      ∀ newer : List Entry, newer.length = latest.length →
        trimmed bound (rest ++ newer) = trimmed bound (older ++ newer) := by
  by_cases positive : 0 < bound
  · simp only [trimmed_of_pos positive] at whole ⊢
    have short : latest.length ≤ bound.toNat := by
      rw [length_rtake] at whole
      omega
    refine ⟨older.rtake (bound.toNat - latest.length), rtake_append_of_le older short, ?_⟩
    intro newer sameLength
    apply rtake_rtake_append
    omega
  · simp only [trimmed_of_not_pos positive]
    exact ⟨older, rfl, fun _ _ => rfl⟩

/-- A memory holds just the newer entries where there are no older ones, or where
they fill it. -/
theorem trimmed_append_eq_newer_iff (bound : Int) (older newer : List Entry)
    (fits : 0 < bound → newer.length ≤ bound.toNat) :
    trimmed bound (older ++ newer) = newer ↔
      older = [] ∨ (0 < bound ∧ newer.length = bound.toNat) := by
  by_cases positive : 0 < bound
  · have short := fits positive
    rw [trimmed_of_pos positive, rtake_append_of_le older short, append_left_eq_self]
    constructor
    · intro empty
      have none : min (bound.toNat - newer.length) older.length = 0 := by
        rw [← length_rtake, empty, length_nil]
      rcases Nat.min_eq_zero_iff.mp none with full | noOlder
      · right
        exact ⟨positive, by omega⟩
      · left
        exact eq_nil_of_length_eq_zero noOlder
    · rintro (rfl | ⟨_, full⟩)
      · exact rtake_nil _
      · rw [full, Nat.sub_self, rtake_zero]
  · rw [trimmed_of_not_pos positive, append_left_eq_self]
    constructor
    · intro empty
      exact Or.inl empty
    · rintro (empty | ⟨possible, _⟩)
      · exact empty
      · exact absurd possible positive

end McpAssistant.Foundations.BoundedMemory
