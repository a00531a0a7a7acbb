import McpAssistant.BusinessQuery.AttributeAliases

/-!
# The family a label names

A detail selection names its family by a label of its own.  One resolver takes a label
for a family only when the family is the single one with that key or signed alias; the
index behind the selections is looser and also knows leading parts and single words.
-/

namespace McpAssistant.BusinessQuery.FamilyLabels

open QueryPlan AttributeAliases PredicateRewriting
open Foundations.Dictionaries Foundations.PrintedValues

structure LabelledDetail extends AliasedDetail where
  logicalSource : String
  familyAliases : List String := []
  aliases : List String := []
deriving DecidableEq

/-- The lower case of a text, and its folded case. -/
structure Casing where
  lower : String → String
  casefold : String → String

section Labels

variable (casing : Casing)

/-- The separators a family label may have for a blank. -/
def blankSeparator (letter : Char) : Char :=
  if letter = '.' ∨ letter = '_' ∨ letter = '-' then ' ' else letter

/-- The words of a text, with one blank between them. -/
def joinWords (letters : List Char) : String :=
  " ".intercalate ((split [] letters).map String.ofList)

def normalizeFamilyAlias (raw : String) : String :=
  joinWords ((casing.casefold (String.ofList (strip raw.toList))).toList.map blankSeparator)

/-- The logical source without the owner's name before it. -/
def sourceOfOwner (detail : LabelledDetail) : List String :=
  let owner := (detail.ownerResource ++ ".").toList
  if owner.isPrefixOf detail.logicalSource.toList then
    [String.ofList (detail.logicalSource.toList.drop owner.length)]
  else []

/-- The aliases a definition can justify; where it maps values, its other labels are
those of values. -/
def signedFamilyAliases (detail : LabelledDetail) : List String :=
  (detail.familyKey :: detail.logicalSource :: (sourceOfOwner detail ++
    (detail.familyAliases ++ if detail.valueMapping = [] then detail.aliases else []))).filter
    fun name => !(strip name.toList).isEmpty

def signedFamilies (definitions : List LabelledDetail) (normalized : String) : List String :=
  ((definitions.filter fun detail =>
    (signedFamilyAliases detail).any fun name =>
      normalizeFamilyAlias casing name = normalized).map (·.familyKey)).dedup

def normalizeDetailFamily (definitions : List LabelledDetail) (family : String) : Option String :=
  if definitions.any fun detail => detail.familyKey = family then some family
  else
    match signedFamilies casing definitions (normalizeFamilyAlias casing family) with
    | [only] => some only
    | _ => none

def canonicalFamily (definitions : List LabelledDetail) (family : String) : String :=
  match normalizeDetailFamily casing definitions family with
  | some found => if found = "" then family else found
  | none => family

/-- One entry of the index: it takes the place of an earlier one, or only an empty one. -/
structure IndexEntry where
  word : String
  replaces : Bool

def replacing (word : String) : IndexEntry where
  word := word
  replaces := true

def filling (word : String) : IndexEntry where
  word := word
  replaces := false

def wordsOf (raw : String) : List String :=
  (split [] raw.toList).map String.ofList

/-- What an alias is indexed under: its normal form, its folded case and itself. -/
def aliasEntries (name : String) : List IndexEntry :=
  [replacing (normalizeAlias casing.lower name), replacing (casing.casefold name), replacing name]

/-- What a definition is indexed under, first to last. -/
def indexEntries (detail : LabelledDetail) : List IndexEntry :=
  [replacing (casing.casefold detail.familyKey), replacing detail.familyKey,
    filling (casing.casefold (String.ofList
      (detail.familyKey.toList.takeWhile fun letter => letter ≠ '.')))] ++
  (detail.familyAliases.flatMap fun name =>
    aliasEntries casing name ++ (wordsOf name).map fun token => filling (casing.casefold token)) ++
  detail.aliases.flatMap (aliasEntries casing)

def writeEntry (family : String) (index : List (String × String)) (entry : IndexEntry) :
    List (String × String) :=
  if !entry.replaces && (lookup index entry.word).isSome then index
  else assign index entry.word family

def indexSelectionAlias (index : List (String × String)) (detail : LabelledDetail) :
    List (String × String) :=
  (indexEntries casing detail).foldl (writeEntry detail.familyKey) index

def selectionIndex (definitions : List LabelledDetail) : List (String × String) :=
  definitions.foldl (indexSelectionAlias casing) []

def labelForms (family : String) : List String :=
  [family, casing.casefold family, normalizeAlias casing.lower family]

/-- The first form with an entry that is not empty; else the label itself. -/
def resolveSelectionFamily (definitions : List LabelledDetail) (family : String) : String :=
  ((labelForms casing family).findSome? fun form =>
    (lookup (selectionIndex casing definitions) form).filter fun found => found ≠ "").getD family

def canonicalizeDetailFamilies (definitions : List LabelledDetail) (plan : PlanNode) :
    Except Outcomes.Raised PlanNode := do
  let rewritten ← rewritePlan (fun typed => .ok
    { typed with familyKey := canonicalFamily casing definitions typed.familyKey }) plan
  pure { rewritten with detailSelections := plan.detailSelections.map fun selection =>
    { selection with family := canonicalFamily casing definitions selection.family } }

def canonicalizeDetailSelections (definitions : List LabelledDetail) (plan : PlanNode) : PlanNode :=
  { plan with detailSelections := plan.detailSelections.map fun selection =>
      { selection with
        family := resolveSelectionFamily casing definitions selection.family } }

end Labels

section Naming

variable (casing : Casing) (definitions : List LabelledDetail)

def Named (detail : LabelledDetail) (family : String) : Prop :=
  ∃ name ∈ signedFamilyAliases detail,
    normalizeFamilyAlias casing name = normalizeFamilyAlias casing family

def Indexed (detail : LabelledDetail) (family : String) : Prop :=
  ∃ entry ∈ indexEntries casing detail, entry.word ∈ labelForms casing family

/-- Only a family with that very key or alias, the single one, takes the label's place,
and both canonicalizers choose it. -/
structure Strict (family : String) : Prop where
  named : resolveSelectionFamily casing definitions family ≠ family → (∃ detail ∈ definitions,
      detail.familyKey = resolveSelectionFamily casing definitions family ∧
        Named casing detail family) ∧
    ∀ detail ∈ definitions, Named casing detail family →
      detail.familyKey = resolveSelectionFamily casing definitions family
  same : resolveSelectionFamily casing definitions family =
    canonicalFamily casing definitions family

/-- What the two canonicalizers make of a label. -/
structure Canonicalized (family : String) : Prop where
  exact : (∃ detail ∈ definitions, detail.familyKey = family) →
    normalizeDetailFamily casing definitions family = some family
  single : (∀ detail ∈ definitions, detail.familyKey ≠ family) → ∀ found,
    normalizeDetailFamily casing definitions family = some found ↔
      (∃ detail ∈ definitions, detail.familyKey = found ∧ Named casing detail family) ∧
        ∀ detail ∈ definitions, Named casing detail family → detail.familyKey = found
  related : resolveSelectionFamily casing definitions family = family ∨ ∃ detail ∈ definitions,
      detail.familyKey = resolveSelectionFamily casing definitions family ∧
        Indexed casing detail family
  only : ∀ found ≠ "", (∃ detail ∈ definitions, Indexed casing detail family) →
    (∀ detail ∈ definitions, Indexed casing detail family → detail.familyKey = found) →
      resolveSelectionFamily casing definitions family = found

end Naming

section Resolving

variable {casing : Casing} {definitions : List LabelledDetail} {family : String}

theorem normalizeDetailFamily_of_key (exact : ∃ detail ∈ definitions, detail.familyKey = family) :
    normalizeDetailFamily casing definitions family = some family := by
  rcases exact with ⟨detail, listed, isKey⟩
  rw [normalizeDetailFamily, if_pos]
  exact List.any_eq_true.mpr ⟨detail, listed, decide_eq_true isKey⟩

variable {found : String}

theorem mem_signedFamilies :
    found ∈ signedFamilies casing definitions (normalizeFamilyAlias casing family) ↔
      ∃ detail ∈ definitions, detail.familyKey = found ∧ Named casing detail family := by
  rw [signedFamilies, List.mem_dedup, List.mem_map]
  apply exists_congr
  intro detail
  rw [List.mem_filter, List.any_eq_true, and_assoc]
  apply and_congr_right
  intro _
  rw [and_comm]
  apply and_congr_right
  intro _
  apply exists_congr
  intro name
  rw [decide_eq_true_iff]

theorem normalizeDetailFamily_iff (inexact : ∀ detail ∈ definitions, detail.familyKey ≠ family)
    (found : String) :
    normalizeDetailFamily casing definitions family = some found ↔
      (∃ detail ∈ definitions, detail.familyKey = found ∧ Named casing detail family) ∧
        ∀ detail ∈ definitions, Named casing detail family → detail.familyKey = found := by
  have notKey : ¬ (definitions.any fun detail => detail.familyKey = family) = true := by
    intro some
    rcases List.any_eq_true.mp some with ⟨detail, listed, isKey⟩
    exact inexact detail listed (of_decide_eq_true isKey)
  rw [normalizeDetailFamily, if_neg notKey, ← mem_signedFamilies]
  have others : (∀ detail ∈ definitions, Named casing detail family → detail.familyKey = found) ↔
      ∀ other ∈ signedFamilies casing definitions (normalizeFamilyAlias casing family),
        other = found := by
    constructor
    · intro each other member
      rcases mem_signedFamilies.mp member with ⟨detail, listed, rfl, named⟩
      exact each detail listed named
    · intro each detail listed named
      exact each _ (mem_signedFamilies.mpr ⟨detail, listed, rfl, named⟩)
  rw [others]
  have nodup : (signedFamilies casing definitions (normalizeFamilyAlias casing family)).Nodup :=
    List.nodup_dedup _
  generalize signedFamilies casing definitions (normalizeFamilyAlias casing family) =
    families at nodup
  rcases families with _ | ⟨first, _ | ⟨second, rest⟩⟩
  · simp
  · simp [eq_comm]
  · refine iff_of_false (by rintro ⟨⟩) ?_
    rintro ⟨_, each⟩
    have same : first = second := (each first (by simp)).trans (each second (by simp)).symm
    rw [same] at nodup
    simp at nodup

variable {index : List (String × String)} {entry : IndexEntry} {pair : String × String}

theorem mem_writeEntry (member : pair ∈ writeEntry family index entry) :
    pair = (entry.word, family) ∨ pair ∈ index := by
  rw [writeEntry] at member
  split at member
  · exact .inr member
  · exact mem_assign member

variable {word : String}

theorem isSome_lookup : (lookup index word).isSome = true ↔ word ∈ index.map Prod.fst := by
  rw [lookup, Option.isSome_map, List.find?_isSome, List.mem_map]
  apply exists_congr
  intro pair
  rw [decide_eq_true_iff]

theorem keys_writeEntry (known : word = entry.word ∨ word ∈ index.map Prod.fst) :
    word ∈ (writeEntry family index entry).map Prod.fst := by
  rw [writeEntry]
  split
  · rename_i filled
    rcases known with rfl | before
    · rw [Bool.and_eq_true] at filled
      exact isSome_lookup.mp filled.2
    · exact before
  · rw [keys_assign]
    split
    · rename_i inside
      rcases known with rfl | before
      · exact inside
      · exact before
    · rcases known with rfl | before
      · exact List.mem_append_right _ (List.mem_singleton.mpr rfl)
      · exact List.mem_append_left _ before

variable {detail : LabelledDetail}

/-- What a definition adds to the index is its own. -/
theorem mem_indexSelectionAlias (member : pair ∈ indexSelectionAlias casing index detail) :
    (∃ entry ∈ indexEntries casing detail, pair = (entry.word, detail.familyKey)) ∨
      pair ∈ index := by
  rw [indexSelectionAlias] at member
  generalize indexEntries casing detail = entries at member
  induction entries generalizing index with
  | nil => exact .inr member
  | cons entry entries later =>
    rcases later member with ⟨other, listed, isPair⟩ | earlier
    · exact .inl ⟨other, List.mem_cons_of_mem _ listed, isPair⟩
    · rcases mem_writeEntry earlier with isPair | before
      · exact .inl ⟨entry, List.mem_cons_self, isPair⟩
      · exact .inr before

theorem keys_indexSelectionAlias
    (known : (∃ entry ∈ indexEntries casing detail, entry.word = word) ∨
      word ∈ index.map Prod.fst) :
    word ∈ (indexSelectionAlias casing index detail).map Prod.fst := by
  rw [indexSelectionAlias]
  generalize indexEntries casing detail = entries at known
  induction entries generalizing index with
  | nil => exact known.resolve_left (by rintro ⟨_, ⟨⟩, _⟩)
  | cons entry entries later =>
    apply later
    rcases known with ⟨other, listed, rfl⟩ | before
    · rcases List.mem_cons.mp listed with rfl | inRest
      · exact .inr (keys_writeEntry (.inl rfl))
      · exact .inl ⟨other, inRest, rfl⟩
    · exact .inr (keys_writeEntry (.inr before))

theorem mem_foldl_index (member : pair ∈ definitions.foldl (indexSelectionAlias casing) index) :
    (∃ detail ∈ definitions, ∃ entry ∈ indexEntries casing detail,
      pair = (entry.word, detail.familyKey)) ∨ pair ∈ index := by
  induction definitions generalizing index with
  | nil => exact .inr member
  | cons detail definitions later =>
    rcases later member with ⟨other, listed, indexed⟩ | earlier
    · exact .inl ⟨other, List.mem_cons_of_mem _ listed, indexed⟩
    · rcases mem_indexSelectionAlias earlier with indexed | before
      · exact .inl ⟨detail, List.mem_cons_self, indexed⟩
      · exact .inr before

theorem keys_foldl_index (known : (∃ detail ∈ definitions, ∃ entry ∈ indexEntries casing detail,
      entry.word = word) ∨ word ∈ index.map Prod.fst) :
    word ∈ (definitions.foldl (indexSelectionAlias casing) index).map Prod.fst := by
  induction definitions generalizing index with
  | nil => exact known.resolve_left (by rintro ⟨_, ⟨⟩, _⟩)
  | cons detail definitions later =>
    apply later
    rcases known with ⟨other, listed, indexed⟩ | before
    · rcases List.mem_cons.mp listed with rfl | inRest
      · exact .inr (keys_indexSelectionAlias (.inl indexed))
      · exact .inl ⟨other, inRest, indexed⟩
    · exact .inr (keys_indexSelectionAlias (.inr before))

theorem lookup_selectionIndex
    (isFound : lookup (selectionIndex casing definitions) word = some found) :
    ∃ detail ∈ definitions, detail.familyKey = found ∧
      ∃ entry ∈ indexEntries casing detail, entry.word = word := by
  rcases mem_foldl_index (mem_of_lookup isFound) with
    ⟨detail, listed, entry, indexed, isPair⟩ | none
  · cases isPair
    exact ⟨detail, listed, rfl, entry, indexed, rfl⟩
  · cases none

theorem resolve_related : resolveSelectionFamily casing definitions family = family ∨
    ∃ detail ∈ definitions, detail.familyKey = resolveSelectionFamily casing definitions family ∧
        Indexed casing detail family := by
  rw [resolveSelectionFamily]
  rcases found : List.findSome? _ (labelForms casing family) with _ | key
  · exact .inl rfl
  · right
    rcases List.exists_of_findSome?_eq_some found with ⟨form, isForm, filled⟩
    rcases lookup_selectionIndex (Option.filter_eq_some_iff.mp filled).1 with
      ⟨detail, listed, isKey, entry, indexed, isWord⟩
    refine ⟨detail, listed, isKey, entry, indexed, ?_⟩
    rw [isWord]
    exact isForm

theorem resolve_only (named : found ≠ "")
    (some : ∃ detail ∈ definitions, Indexed casing detail family)
    (only : ∀ detail ∈ definitions, Indexed casing detail family → detail.familyKey = found) :
    resolveSelectionFamily casing definitions family = found := by
  rcases some with ⟨detail, listed, entry, indexed, isForm⟩
  have known : (lookup (selectionIndex casing definitions) entry.word).isSome = true :=
    isSome_lookup.mpr (keys_foldl_index (.inl ⟨detail, listed, entry, indexed, rfl⟩))
  rcases Option.isSome_iff_exists.mp known with ⟨key, isKey⟩
  have each : ∀ form ∈ labelForms casing family, ∀ other,
      lookup (selectionIndex casing definitions) form = Option.some other → other = found := by
    intro form isForm other isOther
    rcases lookup_selectionIndex isOther with ⟨owner, inside, rfl, word, own, rfl⟩
    exact only owner inside ⟨word, own, isForm⟩
  rw [resolveSelectionFamily]
  rcases first : List.findSome? _ (labelForms casing family) with _ | other
  · have empty := List.findSome?_eq_none_iff.mp first entry.word isForm
    rw [isKey, each entry.word isForm key isKey, Option.filter_eq_none_iff] at empty
    exact absurd (decide_eq_true named) (empty found rfl)
  · rcases List.exists_of_findSome?_eq_some first with ⟨form, own, filled⟩
    exact each form own other (Option.filter_eq_some_iff.mp filled).1

end Resolving

/-- The leading part of a family's key is only a part of it. -/
def printSpecs : LabelledDetail where
  familyKey := "print.specs"
  revisionHash := "hash"
  ownerResource := "job"
  physicalSource := "job_facts"
  ownerColumn := "job_id"
  valueColumn := "value"
  valueKind := .text
  cardinality := .oneToMany
  scopeColumns := { entity := some "entity_id", department := none }
  logicalSource := "job.print_specs"

def asciiCasing : Casing where
  lower text := String.ofList (text.toList.map Char.toLower)
  casefold text := String.ofList (text.toList.map Char.toLower)

end McpAssistant.BusinessQuery.FamilyLabels
