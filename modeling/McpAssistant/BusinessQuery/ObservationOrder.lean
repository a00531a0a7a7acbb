import McpAssistant.BusinessQuery.DetailEngine

/-!
# The order of observations

A statement orders the rows it fetches column by column, and of the rows of one key the
engine keeps the first.  The rows that are kept have different keys, cover every key, and
come before the other rows of theirs.
-/

namespace McpAssistant.BusinessQuery.ObservationOrder

open QueryPlan DetailSources DetailEngine List

/-- A database orders its values: any two compare, and comparisons chain. -/
structure OrderedSql extends Sql where
  total : ∀ left right, (atMost left right || atMost right left) = true
  trans : ∀ first second third, atMost first second = true → atMost second third = true →
    atMost first third = true

section Order

variable {sql : OrderedSql}

def comesBefore (sql : Sql) (column : String × Direction) (first second : Row) : Bool :=
  if column.2 = .asc then sql.atMost (first column.1) (second column.1)
  else sql.atMost (second column.1) (first column.1)

theorem comesBefore_total (column : String × Direction) (first second : Row) :
    comesBefore sql.toSql column first second = true ∨
      comesBefore sql.toSql column second first = true := by
  rw [comesBefore, comesBefore]
  split
  · exact Bool.or_eq_true_iff.mp (sql.total _ _)
  · exact Bool.or_eq_true_iff.mp (sql.total _ _)

variable {column : String × Direction}

theorem comesBefore_trans {first second third : Row}
    (one : comesBefore sql.toSql column first second = true)
    (two : comesBefore sql.toSql column second third = true) :
    comesBefore sql.toSql column first third = true := by
  rw [comesBefore] at one two ⊢
  split
  · rename_i ascending
    rw [if_pos ascending] at one two
    exact sql.trans _ _ _ one two
  · rename_i descending
    rw [if_neg descending] at one two
    exact sql.trans _ _ _ two one

theorem precedes_cons {rest : List (String × Direction)} {first second : Row} :
    Sql.precedes sql.toSql (column :: rest) first second = true ↔
      comesBefore sql.toSql column first second = true ∧
        (comesBefore sql.toSql column second first = true →
          Sql.precedes sql.toSql rest first second = true) := by
  rcases column with ⟨name, direction⟩
  rw [Sql.precedes]
  have total := Bool.or_eq_true_iff.mp (sql.total (first name) (second name))
  cases direction with
  | asc =>
    simp only [comesBefore, if_true]
    split
    · rename_i tie
      rw [Bool.and_eq_true] at tie
      simp only [tie.1, tie.2, true_and, true_implies]
    · rename_i apart
      rw [Bool.and_eq_true] at apart
      constructor
      · intro before
        exact ⟨before, fun after => absurd ⟨before, after⟩ apart⟩
      · rintro ⟨before, _⟩
        exact before
  | desc =>
    simp only [comesBefore, reduceCtorEq, if_false]
    split
    · rename_i tie
      rw [Bool.and_eq_true] at tie
      simp only [tie.1, tie.2, true_and, true_implies]
    · rename_i apart
      rw [Bool.and_eq_true] at apart
      constructor
      · intro before
        exact ⟨before, fun after => absurd ⟨after, before⟩ apart⟩
      · rintro ⟨before, _⟩
        exact before

theorem precedes_total (order : List (String × Direction)) (first second : Row) :
    Sql.precedes sql.toSql order first second = true ∨
      Sql.precedes sql.toSql order second first = true := by
  induction order with
  | nil => exact .inl rfl
  | cons column rest ih =>
    rw [precedes_cons, precedes_cons]
    rcases comesBefore_total column first second with before | before
    · by_cases after : comesBefore sql.toSql column second first = true
      · rcases ih with later | later
        · exact .inl ⟨before, fun _ => later⟩
        · exact .inr ⟨after, fun _ => later⟩
      · exact .inl ⟨before, fun also => absurd also after⟩
    · by_cases after : comesBefore sql.toSql column first second = true
      · rcases ih with later | later
        · exact .inl ⟨after, fun _ => later⟩
        · exact .inr ⟨before, fun _ => later⟩
      · exact .inr ⟨before, fun also => absurd also after⟩

theorem precedes_trans {order : List (String × Direction)} {first second third : Row}
    (one : Sql.precedes sql.toSql order first second = true)
    (two : Sql.precedes sql.toSql order second third = true) :
    Sql.precedes sql.toSql order first third = true := by
  induction order with
  | nil => rfl
  | cons column rest ih =>
    rw [precedes_cons] at one two ⊢
    refine ⟨comesBefore_trans one.1 two.1, ?_⟩
    intro back
    apply ih
    · exact one.2 (comesBefore_trans two.1 back)
    · exact two.2 (comesBefore_trans back one.1)

theorem pairwise_fetch (contents : Contents) (statement : FamilyStatement) :
    (statement.fetch sql.toSql contents).Pairwise fun first second =>
      Sql.precedes sql.toSql statement.order first second = true := by
  apply pairwise_mergeSort
  · intro first second third one two
    exact precedes_trans one two
  · intro first second
    exact Bool.or_eq_true_iff.mpr (precedes_total statement.order first second)

end Order

section Keys

variable {Key : Type} [DecidableEq Key] {key : Row → Key} {rows : List Row} {seen : List Key}

theorem unseen_of_mem_keepFirst {row : Row} (kept : row ∈ keepFirst key rows seen) :
    key row ∉ seen := by
  induction rows generalizing seen with
  | nil => cases kept
  | cons first rest ih =>
    rw [keepFirst] at kept
    split at kept
    · exact ih kept
    · rename_i unseen
      rcases List.mem_cons.mp kept with rfl | later
      · exact unseen
      · intro before
        exact ih later (mem_cons_of_mem _ before)

theorem nodup_keepFirst : ((keepFirst key rows seen).map key).Nodup := by
  induction rows generalizing seen with
  | nil => exact nodup_nil
  | cons first rest ih =>
    rw [keepFirst]
    split
    · exact ih
    · rw [map_cons, nodup_cons]
      refine ⟨?_, ih⟩
      intro again
      rcases List.mem_map.mp again with ⟨row, kept, same⟩
      apply unseen_of_mem_keepFirst kept
      rw [same]
      exact mem_cons_self

theorem keepFirst_covers {row : Row} (member : row ∈ rows) (unseen : key row ∉ seen) :
    ∃ kept ∈ keepFirst key rows seen, key kept = key row := by
  induction rows generalizing seen with
  | nil => cases member
  | cons first rest ih =>
    rw [keepFirst]
    split
    · rename_i known
      rcases List.mem_cons.mp member with rfl | later
      · exact absurd known unseen
      · exact ih later unseen
    · by_cases same : key first = key row
      · exact ⟨first, mem_cons_self, same⟩
      · rcases List.mem_cons.mp member with rfl | later
        · exact absurd rfl same
        · have new : key row ∉ key first :: seen := by
            rw [mem_cons]
            rintro (again | known)
            · exact same again.symm
            · exact unseen known
          rcases ih later new with ⟨kept, among, alike⟩
          exact ⟨kept, mem_cons_of_mem _ among, alike⟩

theorem keepFirst_before {before : Row → Row → Prop} (sorted : rows.Pairwise before)
    {kept other : Row} (among : kept ∈ keepFirst key rows seen) (member : other ∈ rows)
    (same : key other = key kept) : kept = other ∨ before kept other := by
  induction rows generalizing seen with
  | nil => cases member
  | cons first rest ih =>
    rcases List.pairwise_cons.mp sorted with ⟨ahead, sortedRest⟩
    have unseen := unseen_of_mem_keepFirst among
    rw [keepFirst] at among
    split at among
    · rename_i known
      rcases List.mem_cons.mp member with rfl | later
      · rw [same] at known
        exact absurd known unseen
      · exact ih sortedRest among later
    · rcases List.mem_cons.mp among with rfl | inRest
      · rcases List.mem_cons.mp member with rfl | later
        · exact .inl rfl
        · exact .inr (ahead other later)
      · rcases List.mem_cons.mp member with rfl | later
        · have new := unseen_of_mem_keepFirst inRest
          rw [same] at new
          exact absurd mem_cons_self new
        · exact ih sortedRest inRest later

end Keys

end McpAssistant.BusinessQuery.ObservationOrder
