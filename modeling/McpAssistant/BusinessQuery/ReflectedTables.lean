import McpAssistant.BusinessQuery.DetailFacts

/-!
# Tables that sources share

The engine reflects a view once, for the first source that reads it.  Where two sources of
a view sign the same columns, each reads it as if it had reflected the view itself, so a
read of several families returns what each selection returns alone.
-/

namespace McpAssistant.BusinessQuery.ReflectedTables

open DetailSources DetailEngine
open Foundations.Fallible List

section Alone

variable {sql : Sql} {contents : Contents} {scope : ReadScope} {schema : Schema}
  {item : CanonicalDetailSelection}

variable (sql contents scope) in
def readTable (item : CanonicalDetailSelection) (columns : List String) :
    Except ReadFailure (Option (List RecordDetail)) := do
  let statement ← familyStatement scope item columns
  runStatement sql contents statement

variable (sql contents scope schema) in
def readAlone (item : CanonicalDetailSelection) :
    Except ReadFailure (Option (List RecordDetail)) := do
  let (columns, _) ← reflectSourceTable schema item.source
  readTable sql contents scope item columns

variable {columns : List String}

theorem requireColumn_eq_ok {name : String} :
    requireColumn columns name = .ok () ↔ name ∈ columns := by
  rw [requireColumn]
  split
  · rename_i present
    exact iff_of_true rfl (List.contains_iff_mem.mp present)
  · rename_i missing
    exact iff_of_false nofun fun present => missing (List.contains_iff_mem.mpr present)

theorem requireColumns_eq_ok {names : List String} :
    requireColumns columns names = .ok () ↔ ∀ name ∈ names, name ∈ columns := by
  rw [requireColumns]
  split
  · rename_i name missing
    apply iff_of_false nofun
    intro all
    have absent := List.find?_some missing
    rw [Bool.not_eq_true', ← Bool.not_eq_true, contains_iff_mem] at absent
    exact absent (all name (mem_of_find?_eq_some missing))
  · rename_i complete
    apply iff_of_true rfl
    intro name listed
    have present := List.find?_eq_none.mp complete name listed
    rwa [Bool.not_eq_true', Bool.not_eq_false, contains_iff_mem] at present

theorem required_of_familyStatement {statement : FamilyStatement}
    (made : familyStatement scope item columns = .ok statement) :
    ∀ name ∈ requiredColumns item.source, name ∈ columns := by
  simp only [familyStatement, bind_eq_ok] at made
  rcases made with ⟨_, values, _, family, entity, isEntity, department, isDepartment, _⟩
  rw [requiredColumns, forall_mem_append, forall_mem_append]
  refine ⟨⟨?_, ?_⟩, ?_⟩
  · have named := requireColumns_eq_ok.mp values
    intro name listed
    rcases List.mem_append.mp (by exact listed :
      name ∈ [item.source.ownerColumn, item.source.typedValueColumn,
        item.source.displayValueColumn] ++ ["family_key"]) with own | own
    · exact named name own
    · rw [List.mem_singleton.mp own]
      exact requireColumn_eq_ok.mp family
  · intro name listed
    rw [Option.mem_toList] at listed
    rw [listed] at isEntity
    simp only [entityFilters, bind_eq_ok] at isEntity
    rcases isEntity with ⟨_, _, _, present, _⟩
    exact requireColumn_eq_ok.mp present
  · intro name listed
    rw [Option.mem_toList] at listed
    rw [listed, departmentFilters] at isDepartment
    split at isDepartment
    · cases isDepartment
    · simp only [bind_eq_ok] at isDepartment
      rcases isDepartment with ⟨_, present, _⟩
      exact requireColumn_eq_ok.mp present

/-- What a statement returns depends on the names of its table's columns alone. -/
theorem runStatement_columns {first second : FamilyStatement}
    (rest : second = { first with columns := second.columns })
    (alike : ∀ name, first.columns.contains name = second.columns.contains name) :
    runStatement sql contents second = runStatement sql contents first := by
  rcases first with ⟨item, columns, parentIds, filters, order⟩
  rcases second with ⟨_, others, _, _, _⟩
  cases rest
  dsimp only at alike
  have contained : others.contains = columns.contains := by
    funext name
    exact (alike name).symm
  have optional : FamilyStatement.optional ⟨item, others, parentIds, filters, order⟩ =
      FamilyStatement.optional ⟨item, columns, parentIds, filters, order⟩ := by
    funext row column
    simp only [FamilyStatement.optional, alike]
  have key : observationKey ⟨item, others, parentIds, filters, order⟩ =
      observationKey ⟨item, columns, parentIds, filters, order⟩ := by
    funext row
    simp only [observationKey, alike]
  have built : buildRecordDetail sql ⟨item, others, parentIds, filters, order⟩ =
      buildRecordDetail sql ⟨item, columns, parentIds, filters, order⟩ := by
    funext row
    simp only [buildRecordDetail, FamilyStatement.readable, optional, contained]
    rfl
  simp only [runStatement, observations, key, built]
  rfl

variable {found : Option (List RecordDetail)} {others : List String}

theorem readTable_of_alike (alike : ∀ name, columns.contains name = others.contains name)
    (reads : readTable sql contents scope item columns = .ok found) :
    readTable sql contents scope item others = .ok found := by
  simp only [readTable, familyStatement, requireColumns, requireColumn, entityFilters,
    departmentFilters, revisionFilters, asOfFilters, orderColumns, bind_eq_ok, pure_eq_ok,
    alike] at reads ⊢
  rcases reads with ⟨statement, ⟨_, values, _, family, entity, isEntity, department,
    isDepartment, asOf, isAsOf, rfl⟩, ran⟩
  refine ⟨_, ⟨_, values, _, family, entity, isEntity, department, isDepartment, asOf, isAsOf,
    rfl⟩, ?_⟩
  rw [← ran]
  exact runStatement_columns rfl alike

theorem readTable_congr (same : ∀ name, name ∈ columns ↔ name ∈ others) :
    readTable sql contents scope item columns = .ok found ↔
      readTable sql contents scope item others = .ok found := by
  have alike (name : String) : columns.contains name = others.contains name := by
    rw [Bool.eq_iff_iff, contains_iff_mem, contains_iff_mem]
    exact same name
  constructor
  · exact readTable_of_alike alike
  · exact readTable_of_alike fun name => (alike name).symm

/-- Two sources that read one view sign the same columns. -/
def SameColumns (first second : DetailSource) : Prop :=
  first.projectionView = second.projectionView →
    ∀ name, name ∈ detailSourceColumns first ↔ name ∈ detailSourceColumns second

theorem readAlone_eq_ok : readAlone sql contents scope schema item = .ok found ↔
      ∃ columns next, reflectSourceTable schema item.source = .ok (columns, next) ∧
        readTable sql contents scope item columns = .ok found := by
  rw [readAlone, bind_eq_ok]
  constructor
  · rintro ⟨⟨columns, next⟩, reflected, reads⟩
    exact ⟨columns, next, reflected, reads⟩
  · rintro ⟨columns, next, reflected, reads⟩
    exact ⟨(columns, next), reflected, reads⟩

variable {source : DetailSource}

theorem reflectSourceTable_eq_ok {next : Schema} :
    reflectSourceTable schema source = .ok (columns, next) ↔
      ∃ signed, registeredSourceColumns schema source = .ok signed ∧
        ((schema.tables source.projectionView = some columns ∧ next = schema) ∨
          (schema.tables source.projectionView = none ∧
            ∃ physical, schema.physicalColumns source.projectionView = some physical ∧
              physical ≠ [] ∧ columns = signed.filter physical.contains ∧
              (∀ name ∈ requiredColumns source, name ∈ columns) ∧
              next = { schema with
                tables := Function.update schema.tables source.projectionView
                  (some columns) })) := by
  rw [reflectSourceTable, bind_eq_ok]
  apply exists_congr
  intro signed
  apply and_congr_right
  intro _
  rcases schema.tables source.projectionView with _ | found
  · rcases schema.physicalColumns source.projectionView with _ | _ | ⟨name, physical⟩
    · apply iff_of_false nofun
      rintro (⟨⟨⟩, _⟩ | ⟨_, _, ⟨⟩, _⟩)
    · apply iff_of_false nofun
      rintro (⟨⟨⟩, _⟩ | ⟨_, _, ⟨⟩, present, _⟩)
      exact present rfl
    · dsimp only
      split
      · rename_i complete
        rw [all_eq_true] at complete
        constructor
        · rintro ⟨⟩
          refine .inr ⟨rfl, _, rfl, nofun, rfl, ?_, rfl⟩
          intro required listed
          exact List.contains_iff_mem.mp (complete required listed)
        · rintro (⟨⟨⟩, _⟩ | ⟨_, _, ⟨⟩, _, rfl, _, rfl⟩)
          rfl
      · rename_i lacking
        apply iff_of_false nofun
        rintro (⟨⟨⟩, _⟩ | ⟨_, _, ⟨⟩, _, rfl, complete, _⟩)
        apply lacking
        rw [all_eq_true]
        intro required listed
        exact List.contains_iff_mem.mpr (complete required listed)
  · constructor
    · rintro ⟨⟩
      exact .inl ⟨rfl, rfl⟩
    · rintro (⟨⟨⟩, rfl⟩ | ⟨⟨⟩, _⟩)
      rfl

theorem registered_signed {signed : List String}
    (registered : registeredSourceColumns schema source = .ok signed) :
    signed = detailSourceColumns source := by
  simp only [registeredSourceColumns] at registered
  split at registered
  · cases registered
  · split at registered
    · cases registered
    · split at registered
      · exact (Except.ok.inj registered).symm
      · cases registered

variable {tables : String → Option (List String)}

theorem readAlone_congr
    (same : tables item.source.projectionView = schema.tables item.source.projectionView) :
    readAlone sql contents scope { schema with tables } item =
      readAlone sql contents scope schema item := by
  have registered : registeredSourceColumns { schema with tables } item.source =
      registeredSourceColumns schema item.source := rfl
  simp only [readAlone, reflectSourceTable, registered, same]
  rcases registeredSourceColumns schema item.source with _ | signed
  · rfl
  rcases schema.tables item.source.projectionView with _ | found
  · rcases schema.physicalColumns item.source.projectionView with _ | _ | ⟨name, physical⟩
    · rfl
    · rfl
    · by_cases complete : (requiredColumns item.source).all
          (signed.filter (name :: physical).contains).contains = true
      · simp only [bind, Except.bind, if_pos complete]
        rfl
      · simp only [bind, Except.bind, if_neg complete]
  · rfl

theorem readAlone_reflected {physical : List String}
    (unread : schema.tables item.source.projectionView = none)
    (isPhysical : schema.physicalColumns item.source.projectionView = some physical)
    (present : physical ≠ [])
    (table : tables item.source.projectionView = some columns)
    (same : ∀ name, name ∈ columns ↔
      name ∈ (detailSourceColumns item.source).filter physical.contains)
    :
    readAlone sql contents scope { schema with tables } item = .ok found ↔
      readAlone sql contents scope schema item = .ok found := by
  rw [readAlone_eq_ok, readAlone_eq_ok]
  constructor
  · rintro ⟨others, after, reached, reads⟩
    rcases reflectSourceTable_eq_ok.mp reached with ⟨signed, registered, ⟨own, _⟩ | ⟨own, _⟩⟩
    · cases table.symm.trans own
      have isSigned := registered_signed registered
      rcases bind_eq_ok.mp reads with ⟨statement, made, _⟩
      refine ⟨_, _, reflectSourceTable_eq_ok.mpr ⟨signed, registered,
        .inr ⟨unread, physical, isPhysical, present, rfl, ?_, rfl⟩⟩, ?_⟩
      · intro name listed
        rw [isSigned]
        exact (same name).mp (required_of_familyStatement made name listed)
      · rw [isSigned]
        exact (readTable_congr same).mp reads
    · cases table.symm.trans own
  · rintro ⟨others, after, reached, reads⟩
    rcases reflectSourceTable_eq_ok.mp reached with
      ⟨signed, registered, ⟨own, _⟩ | ⟨_, found, isFound, _, rfl, _, _⟩⟩
    · cases unread.symm.trans own
    · cases isPhysical.symm.trans isFound
      rw [registered_signed registered] at reads
      exact ⟨columns, _, reflectSourceTable_eq_ok.mpr ⟨signed, registered, .inl ⟨table, rfl⟩⟩,
        (readTable_congr same).mpr reads⟩

theorem readAlone_next {first : DetailSource} {next : Schema}
    (reflected : reflectSourceTable schema first = .ok (columns, next))
    (same : SameColumns first item.source) :
    readAlone sql contents scope next item = .ok found ↔
      readAlone sql contents scope schema item = .ok found := by
  rcases reflectSourceTable_eq_ok.mp reflected with ⟨signed, registered,
    ⟨_, rfl⟩ | ⟨unread, physical, isPhysical, present, rfl, _, rfl⟩⟩
  · exact Iff.rfl
  by_cases view : first.projectionView = item.source.projectionView
  · apply readAlone_reflected (view ▸ unread) (view ▸ isPhysical) present
    · rw [← view]
      exact Function.update_self ..
    · intro name
      rw [registered_signed registered, mem_filter, mem_filter, same view name]
  · rw [readAlone_congr]
    exact Function.update_of_ne (Ne.symm view) _ _

end Alone

section Families

variable {sql : Sql} {contents : Contents} {scope : ReadScope}

def SignAlike (items : List CanonicalDetailSelection) : Prop :=
  ∀ item ∈ items, ∀ other ∈ items, SameColumns item.source other.source

theorem readFamilies_cons {schema : Schema} {item : CanonicalDetailSelection}
    {rest : List CanonicalDetailSelection} {result : DetailReadResult} :
    readFamilies sql contents scope schema (item :: rest) = .ok result ↔
      ∃ columns next found later, reflectSourceTable schema item.source = .ok (columns, next) ∧
        readTable sql contents scope item columns = .ok found ∧
        readFamilies sql contents scope next rest = .ok later ∧
        later.after item.selection.family found = result := by
  rw [readFamilies, bind_eq_ok]
  constructor
  · rintro ⟨⟨columns, next⟩, reflected, ran⟩
    simp only [bind_eq_ok, pure_eq_ok] at ran
    rcases ran with ⟨statement, made, found, isFound, later, isLater, same⟩
    exact ⟨columns, next, found, later, reflected, bind_eq_ok.mpr ⟨statement, made, isFound⟩,
      isLater, same⟩
  · rintro ⟨columns, next, found, later, reflected, reads, isLater, same⟩
    rcases bind_eq_ok.mp reads with ⟨statement, made, isFound⟩
    refine ⟨(columns, next), reflected, ?_⟩
    simp only [bind_eq_ok, pure_eq_ok]
    exact ⟨statement, made, found, isFound, later, isLater, same⟩

theorem readFamilies_facts {schema : Schema} {items : List CanonicalDetailSelection}
    (alike : SignAlike items) :
    ((∃ result, readFamilies sql contents scope schema items = .ok result) ↔
      ∀ item ∈ items, ∃ found, readAlone sql contents scope schema item = .ok found) ∧
    ∀ result, readFamilies sql contents scope schema items = .ok result → ∀ fact,
      fact ∈ result.details ↔ ∃ item ∈ items, ∃ details,
        readAlone sql contents scope schema item = .ok (some details) ∧ fact ∈ details := by
  induction items generalizing schema with
  | nil =>
    refine ⟨iff_of_true ⟨_, rfl⟩ (forall_mem_nil _), ?_⟩
    rintro result ⟨⟩ fact
    exact iff_of_false not_mem_nil fun ⟨_, listed, _⟩ => not_mem_nil listed
  | cons item rest ih =>
    have alikeRest : SignAlike rest := fun one listed other also =>
      alike one (mem_cons_of_mem _ listed) other (mem_cons_of_mem _ also)
    have same : ∀ other ∈ rest, SameColumns item.source other.source := fun other listed =>
      alike item mem_cons_self other (mem_cons_of_mem _ listed)
    constructor
    · constructor
      · rintro ⟨result, ran⟩
        rcases readFamilies_cons.mp ran with
          ⟨columns, next, found, later, reflected, reads, isLater, _⟩
        rw [forall_mem_cons]
        refine ⟨⟨found, readAlone_eq_ok.mpr ⟨columns, next, reflected, reads⟩⟩, ?_⟩
        intro other listed
        rcases (ih alikeRest).1.mp ⟨later, isLater⟩ other listed with ⟨own, isOwn⟩
        exact ⟨own, (readAlone_next reflected (same other listed)).mp isOwn⟩
      · rw [forall_mem_cons]
        rintro ⟨⟨found, alone⟩, others⟩
        rcases readAlone_eq_ok.mp alone with ⟨columns, next, reflected, reads⟩
        have reached : ∀ other ∈ rest, ∃ own,
            readAlone sql contents scope next other = .ok own := by
          intro other listed
          rcases others other listed with ⟨own, isOwn⟩
          exact ⟨own, (readAlone_next reflected (same other listed)).mpr isOwn⟩
        rcases (ih alikeRest).1.mpr reached with ⟨later, isLater⟩
        exact ⟨_, readFamilies_cons.mpr
          ⟨columns, next, found, later, reflected, reads, isLater, rfl⟩⟩
    · intro result ran fact
      rcases readFamilies_cons.mp ran with
        ⟨columns, next, found, later, reflected, reads, isLater, rfl⟩
      have alone := readAlone_eq_ok.mpr ⟨columns, next, reflected, reads⟩
      have fromRest : (∃ other ∈ rest, ∃ details,
          readAlone sql contents scope schema other = .ok (some details) ∧ fact ∈ details) ↔
            fact ∈ later.details := by
        rw [(ih alikeRest).2 later isLater fact]
        apply exists_congr
        intro other
        apply and_congr_right
        intro listed
        apply exists_congr
        intro details
        rw [readAlone_next reflected (same other listed)]
      rw [exists_mem_cons_iff, fromRest]
      rcases found with _ | details
      · apply Iff.symm
        apply or_iff_right
        rintro ⟨own, isOwn, _⟩
        cases alone.symm.trans isOwn
      · show fact ∈ details ++ later.details ↔ _
        rw [mem_append]
        apply or_congr_left
        constructor
        · intro listed
          exact ⟨details, alone, listed⟩
        · rintro ⟨own, isOwn, listed⟩
          cases alone.symm.trans isOwn
          exact listed

end Families

end McpAssistant.BusinessQuery.ReflectedTables
