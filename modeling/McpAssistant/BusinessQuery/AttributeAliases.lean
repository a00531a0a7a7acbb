import McpAssistant.BusinessQuery.DetailSources
import McpAssistant.BusinessQuery.PredicateRewriting
import McpAssistant.Foundations.Dictionaries
import McpAssistant.Foundations.PrintedValues
import Mathlib.Data.Fintype.EquivFin

/-!
# The aliases of attribute values

A question names a value of a detail family by an alias.  Each signed revision of the
family maps its own aliases to typed values, and the facts of the family carry typed
values under the revision they were recorded with.  Before a plan is compiled, the
aliases in its predicates are replaced by the values they stand for.
-/

namespace McpAssistant.BusinessQuery.AttributeAliases

open Definitions FilterTree QueryPlan Outcomes DetailSources PredicateRewriting
open Foundations.Dictionaries Foundations.Fallible Foundations.PrintedValues List

structure AliasedDetail extends SignedDetail where
  valueMapping : List (String × FilterValue) := []
deriving DecidableEq

/-- The detail definitions of a bundle.  Its validation refuses a repeated revision, and
several revisions without one current among them. -/
structure AliasBundle where
  detailDefinitions : List AliasedDetail
  revisionsDistinct : (detailDefinitions.map fun detail =>
    (detail.familyKey, detail.revisionHash)).Nodup
  oneCurrent : ∀ detail ∈ detailDefinitions,
    let family := detailDefinitions.filter fun other => other.familyKey == detail.familyKey
    1 < family.length → family.countP (fun other => other.isCurrent) = 1

def AliasBundle.definitionsFor (bundle : AliasBundle) (familyKey : String) : List AliasedDetail :=
  bundle.detailDefinitions.filter fun detail => detail.familyKey == familyKey

def AliasBundle.resolveDetailDefinition (bundle : AliasBundle) (familyKey : String)
    (revisionHash : Option String) : Option AliasedDetail :=
  match revisionHash, bundle.definitionsFor familyKey with
  | some hash, signed => signed.find? fun detail => detail.revisionHash == hash
  | none, [only] => some only
  | none, several => several.find? fun detail => detail.isCurrent

def split (run : List Char) : List Char → List (List Char)
  | [] => if run.isEmpty then [] else [run.reverse]
  | letter :: letters =>
    if !isSpace letter then split (letter :: run) letters
    else if run.isEmpty then split [] letters
    else run.reverse :: split [] letters

section Canonicalization

variable (lower : String → String) (bundle : AliasBundle)

/-- An alias in lower case, with one blank between its words. -/
def normalizeAlias (raw : String) : String :=
  " ".intercalate ((split [] (lower (String.ofList (strip raw.toList))).toList).map String.ofList)

def setDefault (entries : List (String × FilterValue)) (key : String)
    (value : FilterValue) : List (String × FilterValue) :=
  if (lookup entries key).isSome then entries else entries ++ [(key, value)]

/-- The aliases of a revision, and each of its values under its own text where no alias
has it. -/
def definitionValueMapping (definition : AliasedDetail) : List (String × FilterValue) :=
  let mapping := ofPairs (definition.valueMapping.map fun entry =>
    (normalizeAlias lower entry.1, entry.2))
  (mapping.map Prod.snd).foldl
    (fun entries value => setDefault entries (normalizeAlias lower value.pyStr) value)
    mapping

/-- The revisions a predicate may be about: the pinned one, else all of its family. -/
def candidateDefinitions (predicate : AttributePredicate) : List AliasedDetail :=
  (bundle.definitionsFor predicate.familyKey).filter fun detail =>
    predicate.revisionHash.all fun hash => detail.revisionHash == hash

def aliasMatches (predicate : AttributePredicate) (text : String) :
    List (FilterValue × AliasedDetail) :=
  (candidateDefinitions bundle predicate).filterMap fun signed =>
    match bundle.resolveDetailDefinition predicate.familyKey (some signed.revisionHash) with
    | none => none
    | some definition =>
      (lookup (definitionValueMapping lower definition) (normalizeAlias lower text)).map
        fun value => (value, signed)

/-- The one value an alias stands for, with the first revision that defines it. -/
def resolveAlias (predicate : AttributePredicate) (text : String) :
    Option (FilterValue × AliasedDetail) :=
  let found := aliasMatches lower bundle predicate text
  if 1 < (found.map Prod.fst).dedup.length then none else found.head?

def requestedValue (predicate : AttributePredicate) (value : FilterValue) :
    Except Raised (FilterValue × Option String) :=
  match value with
  | .text text =>
    match resolveAlias lower bundle predicate text with
    | none => .error (refused .memberNotFound)
    | some (typed, signed) => .ok (typed, some signed.revisionHash)
  | value => .ok (value, none)

def comparesValues : FilterOperator → Bool
  | .eq => true
  | .neq => true
  | .isIn => true
  | .notIn => true
  | _ => false

/-- A copy with other values, as many as the operator takes. -/
def withValues (predicate : AttributePredicate) (values : List FilterValue) : AttributePredicate :=
  if arity : predicate.operator.acceptsValues values = true then
    { predicate with values, arity }
  else predicate

def withRevision (predicate : AttributePredicate) (revision : String) : AttributePredicate :=
  { predicate with revisionHash := some revision, definitionRevision := some revision }

def canonicalizeOne (predicate : AttributePredicate) : Except Raised AttributePredicate :=
  if bundle.definitionsFor predicate.familyKey = [] ∨
      comparesValues predicate.operator = false then .ok predicate
  else if candidateDefinitions bundle predicate = [] then .ok predicate
  else do
    let resolved ← predicate.values.mapM (requestedValue lower bundle predicate)
    let canonical := withValues predicate (resolved.map Prod.fst)
    match predicate.revisionHash, (resolved.filterMap Prod.snd).dedup with
    | none, [revision] =>
      if 1 < (candidateDefinitions bundle predicate).length then
        pure (withRevision canonical revision)
      else pure canonical
    | _, _ => pure canonical

def canonicalizeAttributePredicates (plan : PlanNode) : Except Raised PlanNode :=
  if plan.attributePredicates = [] ∧ plan.filters.isNone ∧ plan.having.isNone then .ok plan
  else rewritePlan (canonicalizeOne lower bundle) plan

end Canonicalization

/-- One recorded fact: its family, the revision it was recorded under, and its other
columns. -/
structure Fact where
  view : String
  familyKey : String
  revisionHash : String
  cells : String → Option FilterValue

/-- What the detail views hold, the facts in the viewer's scope, and how the operators
that compare no whole values read a cell. -/
structure FactStore where
  columns : String → Option (List String)
  facts : List Fact
  inScope : SignedDetail → Fact → Bool
  compares : FilterOperator → List FilterValue → Option FilterValue → Bool

def operatorClause (store : FactStore) (operator : FilterOperator)
    (values : List FilterValue) (cell : Option FilterValue) : Bool :=
  match operator with
  | .eq => cell.any fun found => values.any found.pyEq
  | .isIn => cell.any fun found => values.any found.pyEq
  | .neq => cell.any fun found => values.all fun value => !found.pyEq value
  | .notIn => cell.any fun found => values.all fun value => !found.pyEq value
  | operator => store.compares operator values cell

def ordersValues : FilterOperator → Bool
  | .gt => true
  | .gte => true
  | .lt => true
  | .lte => true
  | _ => false

def isNumericKind : DetailValueKind → Bool
  | .integer => true
  | .decimal => true
  | .money => true
  | .quantity => true
  | _ => false

/-- A predicate whose two revisions name different ones. -/
def revisionsDiffer (predicate : AttributePredicate) : Bool :=
  match predicate.revisionHash, predicate.definitionRevision with
  | some hash, some revision => hash != revision
  | _, _ => false

/-- The owners a predicate selects: those with a fact that satisfies it, recorded under
the pinned revision if one is pinned. -/
def lowerAttributePredicate (bundle : AliasBundle) (store : FactStore)
    (predicate : AttributePredicate) : Except Raised (FilterValue → Bool) :=
  if revisionsDiffer predicate then .error (refused .memberNotFound)
  else
    match bundle.resolveDetailDefinition predicate.familyKey predicate.revisionHash with
    | none => .error (refused .memberNotFound)
    | some definition =>
      match store.columns definition.physicalSource with
      | none => .error (refused .memberNotFound)
      | some columns =>
        if definition.ownerColumn ∉ columns then .error (refused .noJoinPath)
        else if "family_key" ∉ columns ∨ definition.valueColumn ∉ columns then
          .error (refused .memberNotFound)
        else if ordersValues predicate.operator && !isNumericKind definition.valueKind then
          .error (refused .unsupportedOperator)
        else if predicate.revisionHash.isSome ∧ "revision_hash" ∉ columns then
          .error (refused .memberNotFound)
        else
          .ok fun owner => store.facts.any fun fact =>
            fact.view == definition.physicalSource &&
            fact.cells definition.ownerColumn == some owner &&
            fact.familyKey == definition.familyKey &&
            operatorClause store predicate.operator predicate.values
              (fact.cells definition.valueColumn) &&
            store.inScope definition.toSignedDetail fact &&
            predicate.revisionHash.all fun hash => fact.revisionHash == hash

section Question

variable (lower : String → String) (bundle : AliasBundle)

def Defines (signed : AliasedDetail) (text : String) : Prop :=
  (lookup (definitionValueMapping lower signed) (normalizeAlias lower text)).isSome = true

/-- A predicate stands for another without narrowing it: it pins a revision only where
this revision alone defines what is asked for, and it selects what it would select with
no other pin than before. -/
structure KeepsQuestion (before after : AttributePredicate) : Prop where
  pinsOnlySole : after.revisionHash ≠ before.revisionHash →
    ∃ signed ∈ bundle.definitionsFor before.familyKey,
      after.revisionHash = some signed.revisionHash ∧ ∀ text, .text text ∈ before.values →
          ∀ other ∈ bundle.definitionsFor before.familyKey,
            Defines lower other text ↔ other = signed
  sameRows : ∀ store, lowerAttributePredicate bundle store after =
    lowerAttributePredicate bundle store
      { after with
        revisionHash := before.revisionHash
        definitionRevision := before.definitionRevision }

/-- Each alias a predicate compares with is defined by a revision it may be about. -/
def NamesDefined (predicate : AttributePredicate) : Prop :=
  comparesValues predicate.operator = true → ∀ text, .text text ∈ predicate.values →
      ∃ signed ∈ candidateDefinitions bundle predicate, Defines lower signed text

/-- Canonicalization keeps every predicate's question, has nothing left to do on its own
result, and refuses an alias that no revision defines. -/
def NeverNarrows (plan : PlanNode) : Prop :=
  ∀ canonical, canonicalizeAttributePredicates lower bundle plan = .ok canonical →
    List.Forall₂ (KeepsQuestion lower bundle) (attributePredicatesOf plan)
        (attributePredicatesOf canonical) ∧
      canonicalizeAttributePredicates lower bundle canonical = .ok canonical ∧
        ∀ predicate ∈ attributePredicatesOf plan, NamesDefined lower bundle predicate

/-- The value a requested value stands for. -/
def meaning (predicate : AttributePredicate) (value : FilterValue) : FilterValue :=
  match value with
  | .text text =>
    match resolveAlias lower bundle predicate text with
    | none => .text text
    | some (typed, _) => typed
  | value => value

def firstDefiner (predicate : AttributePredicate) (value : FilterValue) : Option String :=
  match value with
  | .text text =>
    (resolveAlias lower bundle predicate text).map fun found => found.2.revisionHash
  | _ => none

def PinsFirst (predicate : AttributePredicate) (values : List FilterValue)
    (revision : String) : Prop :=
  predicate.revisionHash = none ∧ 1 < (candidateDefinitions bundle predicate).length ∧
    (values.filterMap (firstDefiner lower bundle predicate)).dedup = [revision]

/-- The aliases of a predicate, and the values they stand for, leave it without a pin,
and each of these values stands for itself. -/
structure Settled (predicate : AttributePredicate) : Prop where
  visible : ∀ text, .text text ∈ predicate.values → candidateDefinitions bundle predicate ≠ []
  unpinned : ∀ revision, ¬PinsFirst lower bundle predicate predicate.values revision
  canonical : ∀ value ∈ predicate.values, ∀ text,
    meaning lower bundle predicate value = .text text →
      (resolveAlias lower bundle predicate text).map Prod.fst = some (.text text)
  canonicalUnpinned : ∀ revision, ¬PinsFirst lower bundle predicate
    (predicate.values.map (meaning lower bundle predicate)) revision

def Resolves (predicate : AttributePredicate) : Prop :=
  ∀ text, .text text ∈ predicate.values → (resolveAlias lower bundle predicate text).isSome = true

/-- A predicate on a signed family names an alias that has no one value. -/
def Refused (predicate : AttributePredicate) : Prop :=
  comparesValues predicate.operator = true ∧
    candidateDefinitions bundle predicate ≠ [] ∧ ¬Resolves lower bundle predicate

end Question

section OnePredicate

variable {lower : String → String} {bundle : AliasBundle} {predicate : AttributePredicate}

theorem candidateDefinitions_eq_nil (unsigned : bundle.definitionsFor predicate.familyKey = []) :
    candidateDefinitions bundle predicate = [] := by
  rw [candidateDefinitions, unsigned, filter_nil]

theorem canonicalizeOne_eq_self {predicate : AttributePredicate}
    (other : comparesValues predicate.operator = false ∨
      candidateDefinitions bundle predicate = []) :
    canonicalizeOne lower bundle predicate = .ok predicate := by
  unfold canonicalizeOne
  rcases other with otherOperator | unknown
  · rw [if_pos (.inr otherOperator)]
  · rw [if_pos unknown, ite_self]

theorem requestedValue_eq (resolves : Resolves lower bundle predicate) :
    ∀ value ∈ predicate.values, requestedValue lower bundle predicate value =
      .ok (meaning lower bundle predicate value, firstDefiner lower bundle predicate value) := by
  intro value member
  cases value with
  | text text =>
    rcases Option.isSome_iff_exists.mp (resolves text member) with ⟨⟨typed, signed⟩, found⟩
    simp only [requestedValue, meaning, firstDefiner, found, Option.map_some]
  | _ => rfl

theorem resolves_of_mapM {resolved : List (FilterValue × Option String)}
    (ran : predicate.values.mapM (requestedValue lower bundle predicate) = .ok resolved) :
    Resolves lower bundle predicate := by
  intro text member
  rcases (mapM_eq_ok ran).1 _ member with ⟨answer, -, own⟩
  cases found : resolveAlias lower bundle predicate text with
  | none =>
    simp only [requestedValue, found] at own
    cases own
  | some pair => rfl

/-- A predicate on a signed family, its aliases replaced by their values. -/
abbrev canonicalOf (lower : String → String) (bundle : AliasBundle)
    (predicate : AttributePredicate) : AttributePredicate :=
  withValues predicate (predicate.values.map (meaning lower bundle predicate))

theorem canonicalizeOne_eq (comparing : comparesValues predicate.operator = true)
    (known : candidateDefinitions bundle predicate ≠ [])
    (resolves : Resolves lower bundle predicate) :
    canonicalizeOne lower bundle predicate =
      match predicate.revisionHash,
        (predicate.values.filterMap (firstDefiner lower bundle predicate)).dedup with
      | none, [revision] =>
        if 1 < (candidateDefinitions bundle predicate).length then
          .ok (withRevision (canonicalOf lower bundle predicate) revision)
        else .ok (canonicalOf lower bundle predicate)
      | _, _ => .ok (canonicalOf lower bundle predicate) := by
  have signed : bundle.definitionsFor predicate.familyKey ≠ [] :=
    mt candidateDefinitions_eq_nil known
  have guard : ¬(bundle.definitionsFor predicate.familyKey = [] ∨
      comparesValues predicate.operator = false) := by
    simp [signed, comparing]
  unfold canonicalizeOne
  rw [if_neg guard, if_neg known, mapM_of_ok (requestedValue_eq resolves)]
  have values : (predicate.values.map fun value => (meaning lower bundle predicate value,
      firstDefiner lower bundle predicate value)).map Prod.fst =
      predicate.values.map (meaning lower bundle predicate) := by
    rw [map_map]
    rfl
  have revisions : (predicate.values.map fun value =>
      (meaning lower bundle predicate value,
        firstDefiner lower bundle predicate value)).filterMap Prod.snd =
      predicate.values.filterMap (firstDefiner lower bundle predicate) := by
    rw [filterMap_map]
    rfl
  simp only [bind, Except.bind, values, revisions]
  rfl

variable {revision : String} (comparing : comparesValues predicate.operator = true)
include comparing

theorem canonicalizeOne_of_pinsFirst (known : candidateDefinitions bundle predicate ≠ [])
    (resolves : Resolves lower bundle predicate)
    (pins : PinsFirst lower bundle predicate predicate.values revision) :
    canonicalizeOne lower bundle predicate =
      .ok (withRevision (canonicalOf lower bundle predicate) revision) := by
  rcases pins with ⟨unpinned, several, sole⟩
  rw [canonicalizeOne_eq comparing known resolves, unpinned, sole]
  exact if_pos several

theorem canonicalizeOne_of_unpinned (known : candidateDefinitions bundle predicate ≠ [])
    (resolves : Resolves lower bundle predicate)
    (unpinned : ∀ revision, ¬PinsFirst lower bundle predicate predicate.values revision) :
    canonicalizeOne lower bundle predicate = .ok (canonicalOf lower bundle predicate) := by
  rw [canonicalizeOne_eq comparing known resolves]
  split
  · next revision free sole =>
      by_cases several : 1 < (candidateDefinitions bundle predicate).length
      · exact absurd ⟨free, several, sole⟩ (unpinned revision)
      · rw [if_neg several]
  · rfl

variable {canonical : AttributePredicate}

theorem resolves_of_canonicalizeOne (known : candidateDefinitions bundle predicate ≠ [])
    (ran : canonicalizeOne lower bundle predicate = .ok canonical) :
    Resolves lower bundle predicate := by
  have signed : bundle.definitionsFor predicate.familyKey ≠ [] :=
    mt candidateDefinitions_eq_nil known
  have guard : ¬(bundle.definitionsFor predicate.familyKey = [] ∨
      comparesValues predicate.operator = false) := by
    simp [signed, comparing]
  unfold canonicalizeOne at ran
  rw [if_neg guard, if_neg known, bind_eq_ok] at ran
  rcases ran with ⟨resolved, each, -⟩
  exact resolves_of_mapM each

omit comparing

theorem exists_canonicalizeOne_iff :
    (∃ canonical, canonicalizeOne lower bundle predicate = .ok canonical) ↔
      ¬Refused lower bundle predicate := by
  constructor
  · rintro ⟨canonical, ran⟩ ⟨comparing, known, unresolved⟩
    exact unresolved (resolves_of_canonicalizeOne comparing known ran)
  · intro accepted
    cases comparing : comparesValues predicate.operator with
    | false => exact ⟨predicate, canonicalizeOne_eq_self (.inl comparing)⟩
    | true =>
      by_cases known : candidateDefinitions bundle predicate = []
      · exact ⟨predicate, canonicalizeOne_eq_self (.inr known)⟩
      · have resolves : Resolves lower bundle predicate := by
          by_contra unresolved
          exact accepted ⟨comparing, known, unresolved⟩
        rw [canonicalizeOne_eq comparing known resolves]
        split
        · exact (ite_eq_or_eq ..).elim (fun same => ⟨_, same⟩) fun same => ⟨_, same⟩
        · exact ⟨_, rfl⟩

/-! ## The replaced values -/

section Replaced

variable {predicate : AttributePredicate} {values : List FilterValue}

theorem familyKey_withValues : (withValues predicate values).familyKey = predicate.familyKey := by
  unfold withValues
  split <;> rfl

theorem revisionHash_withValues : (withValues predicate values).revisionHash =
    predicate.revisionHash := by
  unfold withValues
  split <;> rfl

theorem operator_withValues : (withValues predicate values).operator = predicate.operator := by
  unfold withValues
  split <;> rfl

theorem acceptsValues_of_comparesValues {operator : FilterOperator}
    (comparing : comparesValues operator = true) :
    operator.acceptsValues values = !values.isEmpty := by
  cases operator <;> first | rfl | cases comparing

theorem values_ne_nil (comparing : comparesValues predicate.operator = true) :
    predicate.values ≠ [] := by
  have arity := predicate.arity
  rw [acceptsValues_of_comparesValues comparing] at arity
  simpa using arity

theorem values_withValues (comparing : comparesValues predicate.operator = true)
    (nonempty : values ≠ []) : (withValues predicate values).values = values := by
  have arity : predicate.operator.acceptsValues values = true := by
    rw [acceptsValues_of_comparesValues comparing]
    simpa using nonempty
  rw [withValues, dif_pos arity]

theorem withValues_self : withValues predicate predicate.values = predicate := by
  rw [withValues, dif_pos predicate.arity]

theorem candidateDefinitions_withValues :
    candidateDefinitions bundle (withValues predicate values) =
      candidateDefinitions bundle predicate := by
  simp only [candidateDefinitions, familyKey_withValues, revisionHash_withValues]

theorem resolveAlias_withValues : resolveAlias lower bundle (withValues predicate values) =
      resolveAlias lower bundle predicate := by
  have found : aliasMatches lower bundle (withValues predicate values) =
      aliasMatches lower bundle predicate := by
    funext text
    unfold aliasMatches
    rw [candidateDefinitions_withValues, familyKey_withValues]
  funext text
  unfold resolveAlias
  rw [found]

theorem meaning_withValues : meaning lower bundle (withValues predicate values) =
      meaning lower bundle predicate := by
  funext value
  simp only [meaning, resolveAlias_withValues]

theorem firstDefiner_withValues : firstDefiner lower bundle (withValues predicate values) =
      firstDefiner lower bundle predicate := by
  funext value
  simp only [firstDefiner, resolveAlias_withValues]

theorem pinsFirst_withValues {requested : List FilterValue} {revision : String} :
    PinsFirst lower bundle (withValues predicate values) requested revision ↔
      PinsFirst lower bundle predicate requested revision := by
  simp only [PinsFirst, firstDefiner_withValues, revisionHash_withValues,
    candidateDefinitions_withValues]

end Replaced

theorem exists_fact_of_selects {store : FactStore}
    {selects : FilterValue → Bool} {owner : FilterValue}
    (pinned : predicate.revisionHash = some revision)
    (lowered : lowerAttributePredicate bundle store predicate = .ok selects)
    (selected : selects owner = true) :
    ∃ fact ∈ store.facts, fact.revisionHash = revision := by
  unfold lowerAttributePredicate at lowered
  split_ifs at lowered
  split at lowered
  · cases lowered
  · split at lowered
    · cases lowered
    · split_ifs at lowered
      cases lowered
      rcases List.any_eq_true.mp selected with ⟨fact, member, all⟩
      simp only [Bool.and_eq_true, pinned, Option.all_some, beq_iff_eq] at all
      exact ⟨fact, member, all.2⟩

theorem exists_current {familyKey : String}
    (several : 1 < (bundle.definitionsFor familyKey).length) :
    ∃ definition, bundle.resolveDetailDefinition familyKey none = some definition ∧
      definition.familyKey = familyKey := by
  have named : ∀ detail ∈ bundle.definitionsFor familyKey, detail.familyKey = familyKey := by
    intro detail member
    exact beq_iff_eq.mp (List.mem_filter.mp member).2
  have current : ∃ detail ∈ bundle.definitionsFor familyKey, detail.isCurrent = true := by
    rcases exists_mem_of_length_pos (Nat.zero_lt_of_lt several) with ⟨detail, member⟩
    have one := bundle.oneCurrent detail (List.mem_filter.mp member).1
    simp only [named detail member] at one
    rw [← countP_pos_iff]
    exact (one several).symm ▸ Nat.zero_lt_one
  have found : bundle.resolveDetailDefinition familyKey none =
      (bundle.definitionsFor familyKey).find? fun detail => detail.isCurrent := by
    unfold AliasBundle.resolveDetailDefinition
    split
    · next given => cases given
    · next only => exact absurd several (by rw [only]; exact Nat.lt_irrefl 1)
    · rfl
  rcases Option.isSome_iff_exists.mp (List.find?_isSome.mpr current) with ⟨definition, isFound⟩
  exact ⟨definition, found.trans isFound, named definition (mem_of_find?_eq_some isFound)⟩

theorem exists_operatorClause (comparing : comparesValues predicate.operator = true) :
    ∃ value, ∀ store, operatorClause store predicate.operator predicate.values
      (some value) = true := by
  rcases Infinite.exists_notMem_finset (predicate.values.map FilterValue.pyStr).toFinset
    with ⟨text, fresh⟩
  have differs : predicate.values.all
      (fun value => !(FilterValue.text text).pyEq value) = true := by
    rw [all_eq_true]
    intro value member
    cases value with
    | text other =>
      have distinct : text ≠ other := by
        rintro rfl
        exact fresh (List.mem_toFinset.mpr (List.mem_map.mpr ⟨_, member, rfl⟩))
      simpa [FilterValue.pyEq] using distinct
    | _ => rfl
  rcases exists_mem_of_ne_nil _ (values_ne_nil comparing) with ⟨value, member⟩
  have equals : predicate.values.any value.pyEq = true :=
    List.any_eq_true.mpr ⟨value, member, FilterValue.pyEq_refl value⟩
  cases operator : predicate.operator with
  | eq => exact ⟨value, fun _ => equals⟩
  | isIn => exact ⟨value, fun _ => equals⟩
  | neq => exact ⟨.text text, fun _ => differs⟩
  | notIn => exact ⟨.text text, fun _ => differs⟩
  | _ =>
    rw [operator] at comparing
    cases comparing

def storeOf (definition : AliasedDetail) (revision : String) (value : FilterValue) : FactStore where
  columns := fun _ => some ["family_key", definition.ownerColumn, definition.valueColumn]
  facts := [{
    view := definition.physicalSource
    familyKey := definition.familyKey
    revisionHash := revision
    cells := fun _ => some value }]
  inScope := fun _ _ => true
  compares := fun _ _ _ => true

theorem exists_store_ne_of_withRevision {predicate : AttributePredicate}
    {revision : String} (comparing : comparesValues predicate.operator = true)
    (unpinned : predicate.revisionHash = none)
    (several : 1 < (candidateDefinitions bundle predicate).length) :
    ∃ store, lowerAttributePredicate bundle store (withRevision predicate revision) ≠
      lowerAttributePredicate bundle store predicate := by
  have all : candidateDefinitions bundle predicate = bundle.definitionsFor predicate.familyKey := by
    simp [candidateDefinitions, unpinned]
  rw [all] at several
  rcases exists_current several with ⟨definition, found, named⟩
  rcases exists_operatorClause comparing with ⟨value, satisfies⟩
  rcases exists_ne revision with ⟨other, differs⟩
  have unordered : ordersValues predicate.operator = false := by
    cases operator : predicate.operator <;> rw [operator] at comparing <;>
      first | rfl | cases comparing
  have agree : revisionsDiffer predicate = false := by
    rw [revisionsDiffer, unpinned]
  refine ⟨storeOf definition other value, ?_⟩
  intro same
  have lowered : ∃ selects, lowerAttributePredicate bundle
      (storeOf definition other value) predicate = .ok selects ∧ selects value = true := by
    unfold lowerAttributePredicate
    rw [if_neg (by rw [agree]; exact Bool.false_ne_true), unpinned, found]
    simp only [storeOf, mem_cons, true_or, or_true, not_true_eq_false, or_self,
      if_false, unordered, Bool.false_and, Bool.false_eq_true, Option.isSome_none,
      false_and]
    refine ⟨_, rfl, ?_⟩
    simpa [storeOf] using satisfies _
  rcases lowered with ⟨selects, lowered, selected⟩
  rcases exists_fact_of_selects rfl (same.trans lowered) selected with ⟨fact, member, recorded⟩
  rw [List.mem_singleton.mp member] at recorded
  exact differs recorded

theorem map_eq_self_iff {values : List FilterValue} {change : FilterValue → FilterValue} :
    values.map change = values ↔ ∀ value ∈ values, change value = value := by
  conv_lhs => rw [← map_id values, map_map]
  exact map_inj_left

/-- A value the aliases stand for, resolved again, is itself. -/
theorem meaning_eq_self_iff {text : String}
    (resolves : (resolveAlias lower bundle predicate text).isSome = true) :
    meaning lower bundle predicate (.text text) = .text text ↔
      (resolveAlias lower bundle predicate text).map Prod.fst = some (.text text) := by
  rcases Option.isSome_iff_exists.mp resolves with ⟨⟨typed, signed⟩, found⟩
  simp only [meaning, found, Option.map_some, Option.some.injEq]

/-- Canonicalization has nothing left to do on its result exactly when the values it
found stand for themselves and leave the predicate without a pin. -/
theorem canonicalizeOne_canonicalOf_iff (comparing : comparesValues predicate.operator = true)
    (known : candidateDefinitions bundle predicate ≠ []) :
    canonicalizeOne lower bundle (canonicalOf lower bundle predicate) =
        .ok (canonicalOf lower bundle predicate) ↔
      (∀ value ∈ predicate.values, ∀ text, meaning lower bundle predicate value = .text text →
          (resolveAlias lower bundle predicate text).map Prod.fst = some (.text text)) ∧
      ∀ revision, ¬PinsFirst lower bundle predicate
        (predicate.values.map (meaning lower bundle predicate)) revision := by
  have nonempty : predicate.values.map (meaning lower bundle predicate) ≠ [] :=
    mt List.map_eq_nil_iff.mp (values_ne_nil comparing)
  have values : (canonicalOf lower bundle predicate).values =
      predicate.values.map (meaning lower bundle predicate) :=
    values_withValues comparing nonempty
  have comparing' : comparesValues (canonicalOf lower bundle predicate).operator = true := by
    rw [operator_withValues, comparing]
  have known' : candidateDefinitions bundle (canonicalOf lower bundle predicate) ≠ [] := by
    rw [candidateDefinitions_withValues]
    exact known
  have pins : ∀ revision, PinsFirst lower bundle (canonicalOf lower bundle predicate)
      (canonicalOf lower bundle predicate).values revision ↔ PinsFirst lower bundle predicate
          (predicate.values.map (meaning lower bundle predicate)) revision := by
    intro revision
    rw [values, pinsFirst_withValues]
  constructor
  · intro ran
    have resolves := resolves_of_canonicalizeOne comparing' known' ran
    have unpinned : ∀ revision, ¬PinsFirst lower bundle (canonicalOf lower bundle predicate)
          (canonicalOf lower bundle predicate).values revision := by
      intro revision pinned
      rw [canonicalizeOne_of_pinsFirst comparing' known' resolves pinned] at ran
      have hash := congrArg AttributePredicate.revisionHash (Except.ok.inj ran)
      rw [pinned.1] at hash
      cases hash
    rw [canonicalizeOne_of_unpinned comparing' known' resolves unpinned] at ran
    have same : (canonicalOf lower bundle predicate).values.map
        (meaning lower bundle predicate) = (canonicalOf lower bundle predicate).values := by
      have again := congrArg AttributePredicate.values (Except.ok.inj ran)
      rw [values_withValues comparing' (by rw [values]; simpa using nonempty),
        meaning_withValues] at again
      exact again
    constructor
    · intro value member text stands
      have inside : .text text ∈ (canonicalOf lower bundle predicate).values := by
        rw [values, ← stands]
        exact mem_map_of_mem member
      have resolved := resolves text inside
      rw [resolveAlias_withValues] at resolved
      exact (meaning_eq_self_iff resolved).mp (map_eq_self_iff.mp same _ inside)
    · intro revision pinned
      exact unpinned revision ((pins revision).mpr pinned)
  · rintro ⟨stand, unpinned⟩
    have itself : ∀ text, .text text ∈ (canonicalOf lower bundle predicate).values →
        (resolveAlias lower bundle predicate text).map Prod.fst = some (.text text) := by
      intro text member
      rw [values] at member
      rcases List.mem_map.mp member with ⟨value, inside, stands⟩
      exact stand value inside text stands
    have resolved : ∀ text, .text text ∈ (canonicalOf lower bundle predicate).values →
        (resolveAlias lower bundle predicate text).isSome = true := by
      intro text member
      rw [← Option.isSome_map, itself text member]
      rfl
    have resolves : Resolves lower bundle (canonicalOf lower bundle predicate) := by
      intro text member
      rw [resolveAlias_withValues]
      exact resolved text member
    rw [canonicalizeOne_of_unpinned comparing' known' resolves
      fun revision pinned => unpinned revision ((pins revision).mp pinned)]
    have same : (canonicalOf lower bundle predicate).values.map
        (meaning lower bundle (canonicalOf lower bundle predicate)) =
          (canonicalOf lower bundle predicate).values := by
      rw [meaning_withValues, map_eq_self_iff]
      intro value member
      cases value with
      | text text => exact (meaning_eq_self_iff (resolved text member)).mpr (itself text member)
      | _ => rfl
    rw [canonicalOf, same, withValues_self]

theorem keepsQuestion_of_same {before after : AttributePredicate}
    (hash : after.revisionHash = before.revisionHash)
    (revision : after.definitionRevision = before.definitionRevision) :
    KeepsQuestion lower bundle before after := by
  constructor
  · intro changed
    exact absurd hash changed
  · intro store
    rw [← hash, ← revision]

theorem definitionRevision_withValues {predicate : AttributePredicate}
    {values : List FilterValue} : (withValues predicate values).definitionRevision =
    predicate.definitionRevision := by
  unfold withValues
  split <;> rfl

/-- A predicate that is pinned loses records that it would select without the pin. -/
theorem not_keepsQuestion_of_pinsFirst (comparing : comparesValues predicate.operator = true)
    (pins : PinsFirst lower bundle predicate predicate.values revision) :
    ¬KeepsQuestion lower bundle predicate
      (withRevision (canonicalOf lower bundle predicate) revision) := by
  intro keeps
  have store := @exists_store_ne_of_withRevision bundle
    (canonicalOf lower bundle predicate) revision
    (by rw [operator_withValues, comparing])
    (by rw [revisionHash_withValues, pins.1])
    (by rw [candidateDefinitions_withValues]; exact pins.2.1)
  rcases store with ⟨store, differs⟩
  apply differs
  rw [keeps.sameRows store, withRevision,
    ← @revisionHash_withValues predicate (predicate.values.map _),
    ← @definitionRevision_withValues predicate (predicate.values.map _)]

theorem defines_of_resolveAlias {text : String}
    (resolves : (resolveAlias lower bundle predicate text).isSome = true) :
    ∃ signed ∈ candidateDefinitions bundle predicate, Defines lower signed text := by
  rcases Option.isSome_iff_exists.mp resolves with ⟨⟨typed, signed⟩, found⟩
  simp only [resolveAlias] at found
  split_ifs at found
  have listed := mem_of_head? found
  rcases List.mem_filterMap.mp listed with ⟨candidate, inside, defined⟩
  cases resolved : bundle.resolveDetailDefinition predicate.familyKey
      (some candidate.revisionHash) with
  | none =>
    rw [resolved] at defined
    cases defined
  | some definition =>
    simp only [resolved, Option.map_eq_some_iff] at defined
    rcases defined with ⟨value, has, -⟩
    have isFound : (bundle.definitionsFor predicate.familyKey).find?
        (fun detail => detail.revisionHash == candidate.revisionHash) = some definition := resolved
    have selected := List.find?_some isFound
    have revision : definition.revisionHash = candidate.revisionHash := beq_iff_eq.mp selected
    have family := mem_of_find?_eq_some isFound
    refine ⟨definition, List.mem_filter.mpr ⟨family, ?_⟩, ?_⟩
    · rw [revision]
      exact (List.mem_filter.mp inside).2
    · rw [Defines, has]
      rfl

theorem keeps_iff_settled (ran : canonicalizeOne lower bundle predicate = .ok canonical) :
    KeepsQuestion lower bundle predicate canonical ∧
        canonicalizeOne lower bundle canonical = .ok canonical ∧
        NamesDefined lower bundle predicate ↔
      (comparesValues predicate.operator = true → Settled lower bundle predicate) := by
  cases comparing : comparesValues predicate.operator with
  | false =>
    have same := @canonicalizeOne_eq_self lower bundle predicate (.inl comparing)
    cases same.symm.trans ran
    apply iff_of_true
    · refine ⟨keepsQuestion_of_same rfl rfl, same, ?_⟩
      intro other
      exact absurd (comparing.symm.trans other) Bool.false_ne_true
    · intro other
      cases other
  | true =>
    by_cases known : candidateDefinitions bundle predicate = []
    · have same := @canonicalizeOne_eq_self lower bundle predicate (.inr known)
      cases same.symm.trans ran
      constructor
      · rintro ⟨-, -, named⟩ -
        have noText : ∀ text, .text text ∉ predicate.values := by
          intro text member
          rcases named comparing text member with ⟨signed, inside, -⟩
          rw [known] at inside
          cases inside
        have noPin : ∀ values revision, ¬PinsFirst lower bundle predicate values revision := by
          rintro values revision ⟨-, several, -⟩
          rw [known] at several
          exact Nat.not_lt_zero 1 several
        constructor
        · intro text member
          exact absurd member (noText text)
        · exact noPin predicate.values
        · intro value member text stands
          cases value with
          | text other => exact absurd member (noText other)
          | _ => cases stands
        · exact noPin _
      · intro settled
        refine ⟨keepsQuestion_of_same rfl rfl, same, ?_⟩
        intro _ text member
        exact absurd known ((settled rfl).visible text member)
    · have resolves := resolves_of_canonicalizeOne comparing known ran
      have named : NamesDefined lower bundle predicate := by
        intro _ text member
        exact defines_of_resolveAlias (resolves text member)
      by_cases pinned : ∃ revision, PinsFirst lower bundle predicate predicate.values revision
      · rcases pinned with ⟨revision, pins⟩
        cases (canonicalizeOne_of_pinsFirst comparing known resolves pins).symm.trans ran
        apply iff_of_false
        · rintro ⟨keeps, -⟩
          exact not_keepsQuestion_of_pinsFirst comparing pins keeps
        · intro settled
          exact (settled rfl).unpinned revision pins
      · have unpinned := not_exists.mp pinned
        cases (canonicalizeOne_of_unpinned comparing known resolves unpinned).symm.trans ran
        rw [canonicalizeOne_canonicalOf_iff comparing known]
        constructor
        · rintro ⟨-, ⟨stand, stay⟩, -⟩ -
          exact ⟨fun _ _ => known, unpinned, stand, stay⟩
        · intro settled
          exact ⟨keepsQuestion_of_same revisionHash_withValues definitionRevision_withValues,
            ⟨(settled rfl).canonical, (settled rfl).canonicalUnpinned⟩, named⟩

end OnePredicate

section Plan

variable {lower : String → String} {bundle : AliasBundle}

theorem canonicalizeAttributePredicates_eq (plan : PlanNode) :
    canonicalizeAttributePredicates lower bundle plan =
      rewritePlan (canonicalizeOne lower bundle) plan := by
  unfold canonicalizeAttributePredicates
  split_ifs with bare
  · symm
    rw [rewritePlan_eq_self_iff]
    rcases bare with ⟨listed, filters, having⟩
    intro predicate member
    rw [attributePredicatesOf, listed, Option.isNone_iff_eq_none.mp filters,
      Option.isNone_iff_eq_none.mp having] at member
    cases member
  · rfl

theorem keep_iff_settled {before after : List AttributePredicate}
    (rewrites : Rewrites (canonicalizeOne lower bundle) before after) :
    List.Forall₂ (KeepsQuestion lower bundle) before after ∧
        (∀ canonical ∈ after, canonicalizeOne lower bundle canonical = .ok canonical) ∧
        (∀ predicate ∈ before, NamesDefined lower bundle predicate) ↔
      ∀ predicate ∈ before, comparesValues predicate.operator = true →
        Settled lower bundle predicate := by
  induction rewrites with
  | nil => simp
  | cons own rest ih =>
    rw [forall₂_cons, forall_mem_cons, forall_mem_cons,
      forall_mem_cons, ← keeps_iff_settled own, ← ih]
    tauto

theorem settled_of_neverNarrows {plan canonical : PlanNode} (keeps : NeverNarrows lower bundle plan)
    (ran : canonicalizeAttributePredicates lower bundle plan = .ok canonical) :
    ∀ predicate ∈ attributePredicatesOf plan,
      comparesValues predicate.operator = true → Settled lower bundle predicate := by
  rcases keeps canonical ran with ⟨each, again, named⟩
  rw [canonicalizeAttributePredicates_eq] at ran again
  exact (keep_iff_settled (rewrites_of_rewritePlan ran)).mp
    ⟨each, rewritePlan_eq_self_iff.mp again, named⟩

/-- Canonicalization never narrows a question exactly where it refuses the plan, or every
predicate that compares with whole values is settled. -/
theorem neverNarrows_iff (lower : String → String) (bundle : AliasBundle) (plan : PlanNode) :
    NeverNarrows lower bundle plan ↔
      (∃ predicate ∈ attributePredicatesOf plan, Refused lower bundle predicate) ∨
        ∀ predicate ∈ attributePredicatesOf plan,
          comparesValues predicate.operator = true → Settled lower bundle predicate := by
  have accepted : (∃ canonical, canonicalizeAttributePredicates lower bundle plan = .ok canonical) ↔
      ¬∃ predicate ∈ attributePredicatesOf plan, Refused lower bundle predicate := by
    rw [canonicalizeAttributePredicates_eq, exists_rewritePlan_iff, CanRewrite]
    simp only [exists_canonicalizeOne_iff, not_exists, not_and]
  constructor
  · intro keeps
    rw [or_iff_not_imp_left, ← accepted]
    rintro ⟨canonical, ran⟩
    exact settled_of_neverNarrows keeps ran
  · intro holds canonical ran
    have settled := holds.resolve_left (accepted.mp ⟨canonical, ran⟩)
    rw [canonicalizeAttributePredicates_eq] at ran ⊢
    rcases (keep_iff_settled (rewrites_of_rewritePlan ran)).mpr settled with
      ⟨each, again, named⟩
    exact ⟨each, rewritePlan_eq_self_iff.mpr again, named⟩

end Plan

def printSides (revision : String) (isCurrent : Bool) : AliasedDetail where
  familyKey := "job_print_sides"
  revisionHash := revision
  ownerResource := "job"
  isCurrent := isCurrent
  physicalSource := "ai_v2_bq_job_print_fact"
  ownerColumn := "job_id"
  valueColumn := "typed_value"
  valueKind := .text
  cardinality := .oneToOne
  scopeColumns := ⟨some "entity_id", none⟩
  valueMapping := [("1 side ptg", .text "one_side"), ("2 side ptg", .text "two_side")]

def earlierSides : String :=
  "sha256:" ++ "cccccccccccccccccccccccccccccccccccccccccccccccccccccccccccccccc"

def currentSides : String :=
  "sha256:" ++ "dddddddddddddddddddddddddddddddddddddddddddddddddddddddddddddddd"

def printBundle : AliasBundle where
  detailDefinitions := [printSides earlierSides false, printSides currentSides true]
  revisionsDistinct := by decide
  oneCurrent := by decide

def oneSided : AttributePredicate where
  familyKey := "job_print_sides"
  operator := .eq
  values := [.text "1 side PTG"]

def oneSidedJobs : PlanNode where
  grain := .entityRows
  dimensions := ["job.id"]
  attributePredicates := [oneSided]

/-- Lower case, for letters of the English alphabet. -/
def englishLower (raw : String) : String :=
  String.ofList (raw.toList.map Char.toLower)

theorem firstDefiner_oneSided :
    firstDefiner englishLower printBundle oneSided (.text "1 side PTG") = some earlierSides := by
  decide +kernel

theorem resolves_oneSided : Resolves englishLower printBundle oneSided := by
  intro text member
  have same : text = "1 side PTG" := by simpa [oneSided] using member
  have resolved := congrArg Option.isSome firstDefiner_oneSided
  rw [firstDefiner, Option.isSome_map] at resolved
  rw [same, resolved]
  rfl

theorem pinsFirst_oneSided :
    PinsFirst englishLower printBundle oneSided oneSided.values earlierSides := by
  have sole : oneSided.values.filterMap (firstDefiner englishLower printBundle oneSided) =
      [earlierSides] := filterMap_cons_some firstDefiner_oneSided
  refine ⟨rfl, by decide +kernel, ?_⟩
  rw [sole]
  rfl

/-- Jobs printed on one side are asked for, and both revisions call that by the same
alias: only those recorded under the earlier revision are found. -/
theorem oneSidedJobs_narrowed : ¬NeverNarrows englishLower printBundle oneSidedJobs := by
  have ran : ∃ canonical, canonicalizeAttributePredicates englishLower printBundle
      oneSidedJobs = .ok canonical := by
    rw [canonicalizeAttributePredicates_eq, exists_rewritePlan_iff]
    intro predicate member
    have same : predicate = oneSided := List.mem_singleton.mp member
    rw [exists_canonicalizeOne_iff, same]
    intro refused
    exact refused.2.2 resolves_oneSided
  rcases ran with ⟨canonical, ran⟩
  intro keeps
  have settled := settled_of_neverNarrows keeps ran oneSided mem_cons_self rfl
  exact settled.unpinned earlierSides pinsFirst_oneSided

end McpAssistant.BusinessQuery.AttributeAliases
