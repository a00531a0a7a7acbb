import Mathlib.Data.List.Dedup
import Mathlib.Data.List.Perm.Lattice

/-!
# Grouping rows

Rows with one key form a group.  A filter that reads only the key keeps or
drops whole groups, so grouping the rows it keeps gives the groups it keeps.
-/

namespace McpAssistant.Foundations.Grouping

open List

variable {Row Key : Type} [DecidableEq Key] (key : Row → Key)

def groupsBy (rows : List Row) : List (List Row) :=
  (rows.map key).dedup.map fun value => rows.filter fun row => key row = value

variable {key}

theorem mem_groupsBy {rows group : List Row} : group ∈ groupsBy key rows ↔
      ∃ row ∈ rows, group = rows.filter fun other => key other = key row := by
  rw [groupsBy, mem_map]
  constructor
  · rintro ⟨value, occurs, rfl⟩
    obtain ⟨row, member, rfl⟩ := List.mem_map.mp (List.mem_dedup.mp occurs)
    exact ⟨row, member, rfl⟩
  · rintro ⟨row, member, rfl⟩
    exact ⟨key row, List.mem_dedup.mpr (mem_map_of_mem member), rfl⟩

theorem exists_head {rows group : List Row} (member : group ∈ groupsBy key rows) :
    ∃ head, group.head? = some head ∧ head ∈ rows ∧ ∀ row ∈ group, key row = key head := by
  obtain ⟨row, inRows, rfl⟩ := mem_groupsBy.mp member
  have nonempty : (rows.filter fun other => key other = key row) ≠ [] := by
    apply ne_nil_of_mem
    exact List.mem_filter.mpr ⟨inRows, decide_eq_true rfl⟩
  have sameKey : ∀ other ∈ rows.filter (fun other => key other = key row), key other = key row := by
    intro other inGroup
    exact of_decide_eq_true (List.mem_filter.mp inGroup).2
  have headIn := head_mem nonempty
  refine ⟨_, List.head?_eq_some_head nonempty, ?_, ?_⟩
  · exact (List.mem_filter.mp headIn).1
  · intro other inGroup
    rw [sameKey other inGroup, sameKey _ headIn]

/-- No group occurs twice. -/
theorem nodup_groupsBy (rows : List Row) : (groupsBy key rows).Nodup := by
  apply List.Nodup.map_on _ (nodup_dedup _)
  intro first occurs second _ same
  obtain ⟨row, member, rfl⟩ := List.mem_map.mp (List.mem_dedup.mp occurs)
  have inFirst : row ∈ rows.filter fun other => key other = key row :=
    List.mem_filter.mpr ⟨member, decide_eq_true rfl⟩
  rw [same] at inFirst
  exact of_decide_eq_true (List.mem_filter.mp inFirst).2

theorem groupsBy_filter_perm (rows : List Row) {keeps : Row → Bool}
    (keyed : ∀ first second, key first = key second → keeps first = keeps second) :
    (groupsBy key (rows.filter keeps)).Perm
      ((groupsBy key rows).filter fun group => group.any keeps) := by
  have whole : ∀ row, keeps row = true →
      (rows.filter keeps).filter (fun other => key other = key row) =
        rows.filter fun other => key other = key row := by
    intro row kept
    rw [filter_filter]
    apply filter_congr
    intro other _
    by_cases same : key other = key row
    · simp [same, keyed other row same, kept]
    · simp [same]
  apply (perm_ext_iff_of_nodup (nodup_groupsBy _) ((nodup_groupsBy rows).filter _)).mpr
  intro group
  rw [mem_filter, mem_groupsBy, mem_groupsBy]
  constructor
  · rintro ⟨row, member, rfl⟩
    obtain ⟨inRows, kept⟩ := List.mem_filter.mp member
    rw [whole row kept]
    refine ⟨⟨row, inRows, rfl⟩, ?_⟩
    apply List.any_eq_true.mpr
    exact ⟨row, List.mem_filter.mpr ⟨inRows, decide_eq_true rfl⟩, kept⟩
  · rintro ⟨⟨row, inRows, rfl⟩, anyKept⟩
    obtain ⟨other, inGroup, kept⟩ := List.any_eq_true.mp anyKept
    have same : key other = key row := of_decide_eq_true (List.mem_filter.mp inGroup).2
    have keptRow : keeps row = true := (keyed other row same) ▸ kept
    refine ⟨row, List.mem_filter.mpr ⟨inRows, keptRow⟩, ?_⟩
    rw [whole row keptRow]

end McpAssistant.Foundations.Grouping
