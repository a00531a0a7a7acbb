import McpAssistant.BusinessQuery.BeforeValidators

/-!
# Normalizing nests no deeper

The filters of a plan nest after normalization as deep as before at most, so a stack that
has room for the raw filters has room for the normalized ones.
-/

namespace McpAssistant.BusinessQuery.NormalizedDepth

open FilterJson PlanJson PlanNormalization BeforeValidators Foundations.JsonReading
  Foundations.Fallible Foundations.PythonExceptions Foundations

theorem branchesDepth_eraseKey (entries : Entries) (key : String) :
    branchesDepth (eraseKey entries key) ≤ branchesDepth entries := by
  induction entries with
  | nil => exact Nat.le_refl _
  | cons entry entries ih =>
    rcases entry with ⟨name, value⟩
    rw [eraseKey, List.filter_cons]
    split
    · rw [branchesDepth, branchesDepth]
      exact max_le_max (Nat.le_refl _) ih
    · rw [branchesDepth]
      exact Nat.le_trans ih (Nat.le_max_right ..)

theorem branchesDepth_putKey (entries : Entries) (key : String) (value : Json) :
    branchesDepth (putKey key value entries) ≤
      max (if key = "all" ∨ key = "any" then branchDepth value else 0) (branchesDepth entries) := by
  induction entries with
  | nil =>
    rw [putKey, branchesDepth]
    exact Nat.le_refl _
  | cons entry entries ih =>
    rcases entry with ⟨name, held⟩
    rw [putKey]
    split
    · rw [branchesDepth, branchesDepth]
      exact max_le_max (Nat.le_refl _) (Nat.le_max_right ..)
    · rw [branchesDepth, branchesDepth]
      omega

theorem branchesDepth_putKey_other {key : String} (other : key ∉ branchKeys)
    (entries : Entries) (value : Json) :
    branchesDepth (putKey key value entries) ≤ branchesDepth entries := by
  have bound := branchesDepth_putKey entries key value
  have noBranch : ¬(key = "all" ∨ key = "any") := by
    simpa [branchKeys] using other
  rw [if_neg noBranch, Nat.zero_max] at bound
  exact bound

theorem branchDepth_le {entries : Entries} {key : String} {value : Json}
    (branch : key = "all" ∨ key = "any") (found : entries.lookup key = some value) :
    branchDepth value ≤ branchesDepth entries := by
  have listed := mem_of_lookup_eq_some found
  clear found
  induction entries with
  | nil => cases listed
  | cons entry entries ih =>
    rcases entry with ⟨name, held⟩
    rw [branchesDepth]
    rcases List.mem_cons.mp listed with same | later
    · cases same
      rw [if_pos branch]
      exact Nat.le_max_left ..
    · exact Nat.le_trans (ih later) (Nat.le_max_right ..)

theorem branchesDepth_renameAlias {field : String} (other : field ∉ branchKeys)
    (names : List String) (entries : Entries) :
    branchesDepth (renameAlias field names entries) ≤ branchesDepth entries := by
  rw [renameAlias]
  split
  · exact Nat.le_refl _
  · split
    · exact Nat.le_refl _
    · split
      · exact Nat.le_refl _
      · exact Nat.le_trans (branchesDepth_putKey_other other _ _) (branchesDepth_eraseKey _ _)

theorem branchesDepth_normalizeLeaf {raw entries : Entries}
    (normal : PlanNormalization.normalizeLeaf raw = .ok entries) :
    branchesDepth entries ≤ branchesDepth raw := by
  have renamed := @branchesDepth_renameAlias "member" (by decide) ["dimension", "field", "name"] raw
  have put : ∀ value, branchesDepth (putKey "operator" value
      (renameAlias "member" ["dimension", "field", "name"] raw)) ≤ branchesDepth raw := by
    intro value
    exact Nat.le_trans (branchesDepth_putKey_other (by decide) _ _) renamed
  unfold PlanNormalization.normalizeLeaf at normal
  dsimp only at normal
  split at normal
  · cases normal
    exact put _
  · cases normal
    exact put _
  · cases normal
    exact put _
  · split at normal
    · cases normal
      exact renamed
    · cases normal
  · cases normal
    exact renamed

mutual

theorem groupDepth_normalizeFilterNode : ∀ (node : Json) {normal : Json},
    PlanNormalization.normalizeFilterNode node = .ok normal → groupDepth normal ≤ groupDepth node
  | .dict entries, normal, same => by
      rw [PlanNormalization.normalizeFilterNode] at same
      split at same
      · rcases map_eq_ok.mp same with ⟨normalized, ran, rfl⟩
        rw [groupDepth, groupDepth]
        exact branchesDepth_normalizeBranches entries ran
      · rcases map_eq_ok.mp same with ⟨normalized, ran, rfl⟩
        rw [groupDepth, groupDepth]
        exact branchesDepth_normalizeLeaf ran
  | .null, _, rfl => Nat.le_refl _
  | .boolean _, _, rfl => Nat.le_refl _
  | .integer _, _, rfl => Nat.le_refl _
  | .float _ _, _, rfl => Nat.le_refl _
  | .text _, _, rfl => Nat.le_refl _
  | .list _, _, rfl => Nat.le_refl _

theorem branchesDepth_normalizeBranches : ∀ (entries : List (String × Json))
    {normal : List (String × Json)},
    PlanNormalization.normalizeBranches entries = .ok normal →
      branchesDepth normal ≤ branchesDepth entries
  | [], _, rfl => Nat.le_refl _
  | (key, value) :: rest, normal, same => by
      rw [PlanNormalization.normalizeBranches] at same
      split at same
      next branch =>
        rcases bind_eq_ok.mp same with ⟨first, ran, tail⟩
        rcases bind_eq_ok.mp tail with ⟨others, ranRest, done⟩
        cases done
        rw [branchesDepth, branchesDepth, if_pos branch, if_pos branch]
        exact max_le_max (branchDepth_normalizeBranch value ran)
          (branchesDepth_normalizeBranches rest ranRest)
      next other =>
        rcases bind_eq_ok.mp same with ⟨kept, isKept, tail⟩
        cases isKept
        rcases bind_eq_ok.mp tail with ⟨others, ranRest, done⟩
        cases done
        rw [branchesDepth, branchesDepth, if_neg other]
        exact max_le_max (Nat.le_refl _) (branchesDepth_normalizeBranches rest ranRest)

theorem branchDepth_normalizeBranch : ∀ (value : Json) {normal : Json},
    PlanNormalization.normalizeBranch value = .ok normal → branchDepth normal ≤ branchDepth value
  | .list items, normal, same => by
      rw [PlanNormalization.normalizeBranch] at same
      rcases map_eq_ok.mp same with ⟨normalized, ran, rfl⟩
      rw [branchDepth, branchDepth]
      exact Nat.add_le_add_left (itemsDepth_normalizeFilterNodes items ran) 1
  | .null, _, rfl => Nat.le_refl _
  | .boolean _, _, rfl => Nat.le_refl _
  | .integer _, _, rfl => Nat.le_refl _
  | .float _ _, _, rfl => Nat.le_refl _
  | .text _, _, rfl => Nat.le_refl _
  | .dict _, _, rfl => Nat.le_refl _

theorem itemsDepth_normalizeFilterNodes : ∀ (items : List Json) {normal : List Json},
    PlanNormalization.normalizeFilterNodes items = .ok normal → itemsDepth normal ≤ itemsDepth items
  | [], _, rfl => Nat.le_refl _
  | item :: items, normal, same => by
      rw [PlanNormalization.normalizeFilterNodes] at same
      rcases bind_eq_ok.mp same with ⟨first, ran, rest⟩
      rcases bind_eq_ok.mp rest with ⟨others, ranRest, done⟩
      cases done
      rw [itemsDepth, itemsDepth]
      exact max_le_max (groupDepth_normalizeFilterNode item ran)
        (itemsDepth_normalizeFilterNodes items ranRest)

end

/-- How deep the nodes of a raw `filters` or `having` nest. -/
def filtersDepth : Json → Nat
  | .list items => 1 + itemsDepth items
  | .dict entries => branchesDepth entries
  | _ => 0

theorem groupDepth_le_filtersDepth (group : Json) : groupDepth group ≤ filtersDepth group := by
  cases group with
  | dict entries => exact Nat.le_refl _
  | _ => exact Nat.zero_le _

theorem filtersDepth_normalizeFilterGroup {group normal : Json}
    (same : PlanNormalization.normalizeFilterGroup group = .ok normal) :
    filtersDepth normal ≤ filtersDepth group := by
  cases group with
  | list items =>
    rcases map_eq_ok.mp same with ⟨normalized, ran, rfl⟩
    rw [filtersDepth, filtersDepth, branchesDepth, if_pos (.inl rfl), branchDepth,
      branchesDepth, Nat.max_zero]
    exact Nat.add_le_add_left (itemsDepth_normalizeFilterNodes items ran) 1
  | dict entries =>
    rcases map_eq_ok.mp same with ⟨normalized, ran, rfl⟩
    exact branchesDepth_normalizeBranches entries ran
  | _ =>
    cases same
    exact Nat.le_refl _

theorem normalizeFilterGroup_agrees (group : Json) (frames : Nat) :
    Agrees (frames < 3 * filtersDepth group + 1)
      (BeforeValidators.normalizeFilterGroup frames group)
      (PlanNormalization.normalizeFilterGroup group) := by
  cases group with
  | list items =>
    rw [BeforeValidators.normalizeFilterGroup, filtersDepth, PlanNormalization.normalizeFilterGroup]
    apply agrees_call (by omega)
    rintro left rfl
    apply agrees_call (by omega)
    rintro inner rfl
    exact ((normalizeFilterNodes_agrees items inner).imp (by omega)).map _
  | dict entries =>
    rw [BeforeValidators.normalizeFilterGroup, filtersDepth, PlanNormalization.normalizeFilterGroup]
    apply agrees_call (by omega)
    rintro left rfl
    exact ((normalizeBranches_agrees entries left).imp (by omega)).map _
  | _ =>
    apply agrees_call
    · rintro rfl
      exact Nat.succ_pos _
    · intro left _
      exact agrees_ok _

/-- The fields of a plan that hold filters. -/
def filterFields : List String := ["filters", "having"]

/-- The filters of a plan nest no deeper than the bound. -/
def NestWithin (depth : Nat) (entries : Entries) : Prop :=
  ∀ key ∈ filterFields, ∀ group, entries.lookup key = some group → filtersDepth group ≤ depth

section Within

variable {depth : Nat} {entries : Entries} {key : String} (within : NestWithin depth entries)
include within

theorem NestWithin.putKey {value : Json}
    (bounded : key ∈ filterFields → filtersDepth value ≤ depth) :
    NestWithin depth (putKey key value entries) := by
  intro field isField group found
  by_cases same : field = key
  · subst same
    rw [lookup_putKey_self] at found
    cases found
    exact bounded isField
  · rw [lookup_putKey_of_ne same] at found
    exact within field isField group found

theorem NestWithin.putOther (other : key ∉ filterFields) (value : Json) :
    NestWithin depth (JsonReading.putKey key value entries) :=
  within.putKey fun isField => absurd isField other

theorem NestWithin.depth_le {group : Json}
    (isField : key ∈ filterFields) (found : entries.lookup key = some group) :
    groupDepth group ≤ depth :=
  Nat.le_trans (groupDepth_le_filtersDepth group) (within key isField group found)

theorem NestWithin.clampLimit : NestWithin depth (clampLimit entries) := by
  unfold PlanNormalization.clampLimit
  split
  · exact within.putOther (by decide) _
  · exact within

theorem NestWithin.listAsGroup (key : String) : NestWithin depth (listAsGroup key entries) := by
  unfold PlanNormalization.listAsGroup
  split
  next items found =>
    apply within.putKey
    intro isField
    rw [filtersDepth, branchesDepth, if_pos (.inl rfl), branchDepth, branchesDepth, Nat.max_zero]
    exact within key isField _ found
  next => exact within

theorem NestWithin.dropNeutralGroup (key : String) :
    NestWithin depth (dropNeutralGroup key entries) := by
  unfold PlanNormalization.dropNeutralGroup
  split
  · split
    · exact within.putKey fun _ => Nat.zero_le _
    · exact within
  · exact within

theorem NestWithin.placePeriod
    (lifted : Option Entries) : NestWithin depth (placePeriod lifted entries) := by
  unfold PlanNormalization.placePeriod
  split
  · exact within.putOther (by decide) _
  · exact within.putOther (by decide) _
  · exact within.putOther (by decide) _
  · exact within

theorem NestWithin.collapseCompareTo : NestWithin depth (collapseCompareTo entries) := by
  unfold PlanNormalization.collapseCompareTo
  split
  · exact within.putOther (by decide) _
  · exact within

theorem NestWithin.normalizeFilterOperators {normal : Entries}
    (same : PlanNormalization.normalizeFilterOperators key entries = .ok normal) :
    NestWithin depth normal := by
  unfold PlanNormalization.normalizeFilterOperators at same
  split at same
  · cases same
    exact within
  · cases same
    exact within
  next group found =>
    rcases map_eq_ok.mp same with ⟨normalized, ran, rfl⟩
    apply within.putKey
    intro isField
    exact Nat.le_trans (filtersDepth_normalizeFilterGroup ran) (within key isField _ found)

omit within

theorem itemsDepth_splitDates : ∀ {items : List Json} {parts : List Json × List Entries},
    PlanNormalization.splitDates items = .ok parts → itemsDepth parts.1 ≤ itemsDepth items
  | [], _, rfl => Nat.le_refl _
  | item :: items, parts, same => by
      rw [PlanNormalization.splitDates] at same
      rcases bind_eq_ok.mp same with ⟨candidate, _, rest⟩
      rcases bind_eq_ok.mp rest with ⟨⟨kept, periods⟩, split, done⟩
      have fewer := itemsDepth_splitDates split
      cases candidate with
      | none =>
        cases done
        rw [itemsDepth, itemsDepth]
        exact max_le_max (Nat.le_refl _) fewer
      | some period =>
        cases done
        rw [itemsDepth]
        exact Nat.le_trans fewer (Nat.le_max_right ..)

theorem branchesDepth_takeBranch (branch : key = "all" ∨ key = "any")
    {group : Entries} {parts : Entries × List Entries}
    (taken : PlanNormalization.takeBranch key group = .ok parts) :
    branchesDepth parts.1 ≤ branchesDepth group := by
  unfold PlanNormalization.takeBranch at taken
  split at taken
  next items found =>
    rcases map_eq_ok.mp taken with ⟨split, ran, rfl⟩
    apply Nat.le_trans (branchesDepth_putKey group key _)
    rw [if_pos branch, branchDepth]
    have held := branchDepth_le branch found
    have fewer := itemsDepth_splitDates ran
    rw [branchDepth] at held
    omega
  next =>
    cases taken
    exact Nat.le_refl _

theorem NestWithin.takeDateFilters (within : NestWithin depth entries)
    {parts : Entries × Option Entries}
    (taken : PlanNormalization.takeDateFilters entries = .ok parts) :
    NestWithin depth parts.1 := by
  unfold PlanNormalization.takeDateFilters at taken
  split at taken
  next group found =>
    rcases bind_eq_ok.mp taken with ⟨⟨cleaned, conjuncts⟩, first, rest⟩
    rcases bind_eq_ok.mp rest with ⟨⟨again, alternatives⟩, second, done⟩
    dsimp only at done
    split at done
    · cases done
      exact within
    · cases done
      apply within.putKey
      intro isField
      have one := branchesDepth_takeBranch (.inl rfl) first
      have other := branchesDepth_takeBranch (.inr rfl) second
      exact Nat.le_trans (Nat.le_trans other one) (within "filters" isField _ found)
  next =>
    cases taken
    exact within

theorem NestWithin.normalized (within : NestWithin depth entries) {normal : Entries}
    (same : PlanNormalization.normalizePeriodAndDateFilters entries = .ok normal) :
    NestWithin depth normal := by
  unfold PlanNormalization.normalizePeriodAndDateFilters at same
  rcases bind_eq_ok.mp same with ⟨first, ranFilters, rest⟩
  rcases bind_eq_ok.mp rest with ⟨second, ranHaving, rest⟩
  rcases bind_eq_ok.mp rest with ⟨⟨taken, lifted⟩, ranDates, done⟩
  cases done
  have raw := (within.normalizeFilterOperators ranFilters).normalizeFilterOperators ranHaving
  have grouped := (raw.clampLimit.listAsGroup "filters").listAsGroup "having"
  have dates := ((grouped.dropNeutralGroup "filters").dropNeutralGroup
    "having").takeDateFilters ranDates
  apply NestWithin.collapseCompareTo
  apply NestWithin.placePeriod
  split
  · exact dates.dropNeutralGroup "filters"
  · exact dates

end Within

section Dates

variable {deep : Prop}

theorem asPeriod_without_values {entry : Entries}
    (empty : ∀ value rest, entry.lookup "values" ≠ some (.list (value :: rest))) :
    PlanNormalization.asPeriod entry = .ok none := by
  unfold PlanNormalization.asPeriod
  dsimp only
  split
  next held => exact absurd held (empty _ _)
  next held => exact absurd held (empty _ _)
  next held => exact absurd held (empty _ _)
  next held => exact absurd held (empty _ _)
  next => rfl

theorem asPeriod_agrees (entry : Entries) :
    Agrees deep (BeforeValidators.asPeriod entry) (PlanNormalization.asPeriod entry) := by
  by_cases empty : ∀ value rest, entry.lookup "values" ≠ some (.list (value :: rest))
  · rw [asPeriod_without_values empty, BeforeValidators.asPeriod]
    dsimp only
    split
    next held => exact absurd held (empty _ _)
    next => exact agrees_ok none
  · simp only [not_forall, ne_eq, not_not] at empty
    rcases empty with ⟨value, rest, held⟩
    rw [BeforeValidators.asPeriod, PlanNormalization.asPeriod, held]
    generalize (entry.lookup "member").getD .null = member
    dsimp only
    cases operator : entry.lookup "operator" with
    | none => exact agrees_ok none
    | some json =>
      cases json with
      | text name =>
        by_cases since : name = "since"
        · subst since
          exact agrees_ok _
        by_cases on : name = "on"
        · subst on
          exact agrees_ok _
        by_cases between : name = "between"
        · subst between
          rcases rest with _ | ⟨last, _ | ⟨more, rest⟩⟩
          · exact agrees_ok none
          · exact agrees_ok _
          · exact agrees_ok none
        have other : isIn ["since", "on"] (.text name) = .ok false := by
          simp [isIn, since, on]
        split
        next same _ => exact absurd (Json.text.inj (Option.some.inj same)) between
        next =>
          rw [Option.getD_some, other]
          show Agrees deep (.ok none) _
          split
          next same _ => exact absurd (Json.text.inj (Option.some.inj same)) between
          next same _ => exact absurd (Json.text.inj (Option.some.inj same)) since
          next same _ => exact absurd (Json.text.inj (Option.some.inj same)) on
          next same _ =>
            cases same
            exact agrees_ok none
          next => exact agrees_ok none
      | list items => exact .escaped
      | dict items => exact .escaped
      | _ => exact agrees_ok none

theorem nodeAsPeriod_agrees (node : Json) :
    Agrees deep (BeforeValidators.nodeAsPeriod node) (PlanNormalization.nodeAsPeriod node) := by
  cases node with
  | dict entry => exact asPeriod_agrees entry
  | _ => exact agrees_ok none

theorem splitDates_agrees (items : List Json) :
    Agrees deep (BeforeValidators.splitDates items) (PlanNormalization.splitDates items) := by
  induction items with
  | nil => exact agrees_ok _
  | cons item items ih =>
    rw [BeforeValidators.splitDates, PlanNormalization.splitDates]
    apply (nodeAsPeriod_agrees item).bind
    intro candidate
    apply ih.bind
    rintro ⟨kept, periods⟩
    cases candidate with
    | none => exact agrees_ok _
    | some period => exact agrees_ok _

theorem takeBranch_agrees (key : String) (group : Entries) :
    Agrees deep (BeforeValidators.takeBranch key group)
      (PlanNormalization.takeBranch key group) := by
  rw [BeforeValidators.takeBranch, PlanNormalization.takeBranch]
  cases group.lookup key with
  | none => exact agrees_ok _
  | some branch =>
    cases branch with
    | list items => exact (splitDates_agrees items).map _
    | _ => exact agrees_ok _

theorem takeDateFilters_agrees (data : Entries) :
    Agrees deep (BeforeValidators.takeDateFilters data)
      (PlanNormalization.takeDateFilters data) := by
  rw [BeforeValidators.takeDateFilters, PlanNormalization.takeDateFilters]
  cases data.lookup "filters" with
  | none => exact agrees_ok _
  | some group =>
    cases group with
    | dict group =>
      apply (takeBranch_agrees "all" group).bind
      rintro ⟨cleaned, conjuncts⟩
      apply (takeBranch_agrees "any" cleaned).bind
      rintro ⟨again, alternatives⟩
      dsimp only
      cases conjuncts ++ alternatives with
      | nil => exact agrees_ok _
      | cons first others => exact agrees_ok _
    | _ => exact agrees_ok _

end Dates

section Normalizing

variable {depth frames : Nat} {entries : Entries} (within : NestWithin depth entries)
include within

theorem dropNeutralGroup_agrees {key : String} (isField : key ∈ filterFields) :
    Agrees (frames < 3 * depth + 2) (BeforeValidators.dropNeutralGroup frames key entries)
      (.ok (PlanNormalization.dropNeutralGroup key entries)) := by
  rw [BeforeValidators.dropNeutralGroup, PlanNormalization.dropNeutralGroup]
  cases found : entries.lookup key with
  | none =>
    apply agrees_call (by omega)
    intro left _
    exact agrees_ok entries
  | some group =>
    have bounded := within.depth_le isField found
    have neutral := (isNeutralGroupNode_agrees group frames).imp
      (by omega : _ → frames < 3 * depth + 2)
    apply neutral.followed
    dsimp only
    cases FilterJson.isNeutralGroupNode group with
    | true => exact agrees_ok _
    | false => exact agrees_ok _

theorem normalizeFilterOperators_agrees {key : String} (isField : key ∈ filterFields) :
    Agrees (frames < 3 * depth + 2) (BeforeValidators.normalizeFilterOperators frames key entries)
      (PlanNormalization.normalizeFilterOperators key entries) := by
  rw [BeforeValidators.normalizeFilterOperators, PlanNormalization.normalizeFilterOperators]
  cases found : entries.lookup key with
  | none => exact agrees_ok _
  | some group =>
    have bounded := within key isField group found
    have agrees := (normalizeFilterGroup_agrees group frames).imp
      (by omega : _ → frames < 3 * depth + 2)
    cases group with
    | null => exact agrees_ok _
    | _ => exact agrees.map _

/-- Normalizing raises nothing but the `TypeError` of an operator that no set can hold,
and runs out of stack on filters that nest too deep for it. -/
theorem normalizePeriodAndDateFilters_agrees :
    Agrees (frames < 3 * depth + 2) (BeforeValidators.normalizePeriodAndDateFilters frames entries)
      (PlanNormalization.normalizePeriodAndDateFilters entries) := by
  rw [BeforeValidators.normalizePeriodAndDateFilters,
    PlanNormalization.normalizePeriodAndDateFilters]
  apply (normalizeFilterOperators_agrees within (by decide)).bind_ok
  intro first ranFilters
  have one := within.normalizeFilterOperators ranFilters
  apply (normalizeFilterOperators_agrees one (by decide)).bind_ok
  intro second ranHaving
  have grouped := ((one.normalizeFilterOperators ranHaving).clampLimit.listAsGroup
    "filters").listAsGroup "having"
  have dropped := grouped.dropNeutralGroup "filters"
  apply (dropNeutralGroup_agrees grouped (by decide)).followed
  apply (dropNeutralGroup_agrees dropped (by decide)).followed
  apply (takeDateFilters_agrees _).bind_ok
  rintro ⟨taken, lifted⟩ ranDates
  have dates := (dropped.dropNeutralGroup "having").takeDateFilters ranDates
  cases lifted with
  | none => exact agrees_ok _
  | some period =>
    apply (dropNeutralGroup_agrees dates (by decide)).followed
    exact agrees_ok _

end Normalizing

end McpAssistant.BusinessQuery.NormalizedDepth
