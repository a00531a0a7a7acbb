import McpAssistant.BusinessQuery.PlannedExecution
import McpAssistant.Foundations.LikePatterns
import McpAssistant.Foundations.PrintedValues

/-!
# Names in the directory

A name is searched as the phrase that was given, and by its tokens only where no name has
the phrase.  The database returns a few rows of each search, and a search by tokens is
decided by the order of the tokens and by whole numbers.
-/

namespace McpAssistant.BusinessQuery.NameResolution

open Definitions Scopes PlanBinding Foundations.Fallible Foundations.LikePatterns
open Foundations.PrintedValues (isSpace isDecimalDigit)

/-- What Python knows of Unicode. -/
structure Unicode where
  nfkc : List Char → List Char
  casefold : List Char → List Char
  isDigit : Char → Bool

/-- Cells are what the database tells apart; rows of one name come in any order. -/
structure Database (Cell : Type) where
  text : Cell → Option (List Char)
  print : Cell → List Char
  equals : Cell → FilterValue → Bool
  same : Char → Char → Bool
  orderByName : List (Cell × Cell) → List (Cell × Cell)
  orderByName_perm : ∀ rows, (orderByName rows).Perm rows

inductive Disposition where
  | none
  | exact
  | ambiguous
deriving DecidableEq

structure Candidate where
  id : List Char
  resourceType : ResolvableAs
  label : List Char
  suggestedQuery : List Char

structure ResolverResult where
  disposition : Disposition
  valueType : ResolvableAs
  member : String
  canonicalValues : List (List Char) := []
  matchCount : Nat := 0
  candidates : List Candidate := []

def candidateCap : Nat := 10

def cardPickCap : Nat := 3

def maxLookupTokens : Nat := 12

section Tokens

variable (unicode : Unicode)

/-- `split` at blanks. -/
def words (letters : List Char) : List (List Char) :=
  (letters.splitOnP isSpace).filter (· ≠ [])

def normalizeLookupValue (raw : List Char) : List Char :=
  [' '].intercalate (words (unicode.nfkc raw))

/-- Words, cut where digits begin or end, each once. -/
def lookupTokens (raw : List Char) : List (List Char) :=
  ((words (unicode.casefold (normalizeLookupValue unicode raw))).flatMap
    (List.splitBy fun before letter => isDecimalDigit before == isDecimalDigit letter)).eraseDups.take
      maxLookupTokens

def isNumeric (token : List Char) : Bool :=
  token ≠ [] && token.all unicode.isDigit

def carries (token other : List Char) : Bool :=
  other = token ||
    !isNumeric unicode token && !isNumeric unicode other && other.tails.any token.isPrefixOf

/-- Each token is looked for behind the place of the one before it. -/
def carriesInOrder : List (List Char) → List (List Char) → Bool
  | _, [] => true
  | candidates, token :: tokens =>
    match candidates.dropWhile fun other => !carries unicode token other with
    | [] => false
    | _ :: behind => carriesInOrder behind tokens

def tokenMatch (candidate : List Char) (tokens : List (List Char)) : Bool :=
  carriesInOrder unicode (lookupTokens unicode candidate) tokens

end Tokens

/-- The rows of a view, the columns that a lookup reads, and what scoping forces. -/
structure View (Cell : Type) where
  rows : List (String → Cell)
  id : String
  name : String
  forced : List ForcedPredicate

section Searching

variable {Cell : Type} (unicode : Unicode) (database : Database Cell)
  (tables : String → List (String → Cell)) (bundle : DefinitionBundle) (scope : ScopedPlan)
  (lookup : ResolverLookup)

theorem slash_ne_any : '/' ≠ '%' := by decide

theorem slash_ne_one : '/' ≠ '_' := by decide

def autoescape : Escape := { letter := '/', notAny := slash_ne_any, notOne := slash_ne_one }

def nameContains (name : Cell) (word : List Char) : Bool :=
  match database.text name with
  | none => false
  | some letters =>
    likeMatches database.same autoescape ('%' :: (escapeLike autoescape word ++ ['%'])) letters

def forcedHolds (row : String → Cell) (predicate : ForcedPredicate) : Bool :=
  match predicate.operator with
  | .eq => predicate.values.head?.any (database.equals (row predicate.column))
  | .isIn => predicate.values.any (database.equals (row predicate.column))

def viewOf : Except String (View Cell × Option String) :=
  match bundle.dimensions.find? fun item => item.name == lookup.member with
  | none => .error "lookup member is not a resolvable dimension of this bundle"
  | some dimension =>
    if dimension.resolvableAs ≠ some lookup.valueType then
      .error "lookup member is not a resolvable dimension of this bundle"
    else match bundle.resources.find? fun item => item.name == dimension.owningResource with
      | none => .error "lookup member has no resource binding"
      | some binding =>
        let forced := scope.forced.filter fun predicate => predicate.resource = binding.name
        if ¬ (scope.principal.any fun principal => principal.crossEntity = some true) ∧
            ¬ forced.any fun predicate => some predicate.column = binding.scopeColumns.entity then
          .error "lookup scope unavailable"
        else do
          let (id, identityMember) ← lookupIdentity lookup bundle
          return (⟨tables binding.projectionView, id, strip dimension.sqlExpression, forced⟩,
            identityMember)

/-- A card's entry, which takes no empty texts and no departments. -/
def namedPick (valueType : ResolvableAs) (row : Cell × Cell) : Except String Candidate :=
  let id := (database.print row.1).take 32
  let label := (database.print row.2).take 128
  if id = [] ∨ label = [] ∨ valueType = .department then .error "validation error"
  else .ok ⟨id, valueType, label, ("records for ".toList ++ label).take 200⟩

def resultOf (identityMember : Option String) : List (Cell × Cell) → Except String ResolverResult
  | [] => .ok { disposition := .none, valueType := lookup.valueType, member := lookup.member }
  | [row] => .ok {
      disposition := .exact
      valueType := lookup.valueType
      member := lookup.member
      canonicalValues := [database.print (if identityMember.isSome then row.1 else row.2)]
      matchCount := 1 }
  | rows => do
      let candidates ← (rows.take cardPickCap).mapM (namedPick database lookup.valueType)
      return {
        disposition := .ambiguous
        valueType := lookup.valueType
        member := lookup.member
        matchCount := min rows.length candidateCap
        candidates }

def dispositionOf : Nat → Disposition
  | 0 => .none
  | 1 => .exact
  | _ => .ambiguous

theorem disposition_resultOf {identityMember : Option String}
    {rows : List (Cell × Cell)} {result : ResolverResult}
    (made : resultOf database lookup identityMember rows = .ok result) :
    result.disposition = dispositionOf rows.length := by
  rcases rows with _ | ⟨row, _ | ⟨other, rows⟩⟩
  · cases made
    rfl
  · cases made
    rfl
  · rcases bind_eq_ok.mp made with ⟨candidates, _, same⟩
    cases same
    rfl

variable [DecidableEq Cell]

/-- The distinct rows in scope whose names contain every word. -/
def found (view : View Cell) (terms : List (List Char)) : List (Cell × Cell) :=
  ((view.rows.filter fun row =>
    terms.all (nameContains database (row view.name)) &&
      view.forced.all (forcedHolds database row)).map fun row =>
        (row view.id, row view.name)).eraseDups

def search (view : View Cell) (terms : List (List Char)) : List (Cell × Cell) :=
  (database.orderByName (found database view terms)).take (candidateCap + 1)

def accepts (phrase : List Char) (row : Cell × Cell) : Bool :=
  tokenMatch unicode (database.print row.2) (lookupTokens unicode phrase)

def values (view : View Cell) (phrase : List Char) : List (Cell × Cell) :=
  if search database view [phrase] ≠ [] then search database view [phrase]
  else if 1 < (lookupTokens unicode phrase).length then
    (search database view (lookupTokens unicode phrase)).filter (accepts unicode database phrase)
  else []

def resolve (phrase : List Char) : Except String ResolverResult := do
  let (view, identityMember) ← viewOf tables bundle scope lookup
  resultOf database lookup identityMember (values unicode database view phrase)

def Resolves (phrase : List Char) (Holds : View Cell → ResolverResult → Prop) : Prop :=
  ∀ view identityMember result,
    viewOf tables bundle scope lookup = .ok (view, identityMember) →
      resolve unicode database tables bundle scope lookup phrase = .ok result → Holds view result

/-- The rows that have the phrase are counted; without one, those that the tokens accept
among the names that have them all, as long as the database returns all these. -/
structure CountsMatches (phrase : List Char) (view : View Cell) (result : ResolverResult) :
    Prop where
  byPhrase : found database view [phrase] ≠ [] →
    result.disposition = dispositionOf (found database view [phrase]).length
  byOneToken : found database view [phrase] = [] → (lookupTokens unicode phrase).length ≤ 1 →
    result.disposition = .none
  byTokens : found database view [phrase] = [] → 1 < (lookupTokens unicode phrase).length →
    (found database view (lookupTokens unicode phrase)).length ≤ candidateCap + 1 →
      result.disposition = dispositionOf ((found database view (lookupTokens unicode phrase)).filter
        (accepts unicode database phrase)).length

variable {unicode database tables bundle scope lookup}

/-- A limit of two rows or more leaves none, one and several apart. -/
theorem dispositionOf_search (view : View Cell) (terms : List (List Char)) :
    dispositionOf (search database view terms).length =
      dispositionOf (found database view terms).length := by
  rw [search, List.length_take, (database.orderByName_perm _).length_eq]
  rcases (found database view terms).length with _ | _ | count
  · rfl
  · rfl
  · rw [candidateCap, Nat.min_def]
    split
    · rfl
    · rfl

variable {terms : List (List Char)}

theorem search_eq_nil {view : View Cell} :
    search database view terms = [] ↔ found database view terms = [] := by
  rw [search, List.take_eq_nil_iff]
  constructor
  · rintro (none | none)
    · cases none
    · exact List.nil_perm.mp (none ▸ database.orderByName_perm _)
  · intro none
    rw [none]
    exact Or.inr (List.perm_nil.mp (database.orderByName_perm []))

theorem length_filter_search {view : View Cell}
    (keep : Cell × Cell → Bool) (few : (found database view terms).length ≤ candidateCap + 1) :
    ((search database view terms).filter keep).length =
      ((found database view terms).filter keep).length := by
  have perm := database.orderByName_perm (found database view terms)
  rw [search, List.take_of_length_le (perm.length_eq ▸ few)]
  exact (perm.filter keep).length_eq

theorem resolve_countsMatches (phrase : List Char) :
    Resolves unicode database tables bundle scope lookup phrase
      (CountsMatches unicode database phrase) := by
  intro view identityMember result isView resolved
  rw [resolve, isView] at resolved
  have counted := disposition_resultOf database lookup resolved
  rw [values] at counted
  constructor
  · intro some_found
    rw [if_pos (mt search_eq_nil.mp some_found), dispositionOf_search] at counted
    exact counted
  · intro none_found single
    rw [if_neg (not_not.mpr (search_eq_nil.mpr none_found)), if_neg (Nat.not_lt.mpr single)]
      at counted
    exact counted
  · intro none_found several few
    rw [if_neg (not_not.mpr (search_eq_nil.mpr none_found)), if_pos several,
      length_filter_search _ few] at counted
    exact counted

end Searching

/-- ASCII text in a database of texts. -/
def plainUnicode : Unicode := ⟨id, id, Char.isDigit⟩

def plainDatabase : Database String where
  text cell := some cell.toList
  print := String.toList
  equals cell value := value = .text cell ∨ value = .integer 1 ∧ cell = "1"
  same letter other := letter = other
  orderByName := id
  orderByName_perm := List.Perm.refl

/-- One customer, who is called by a longer number. -/
def room11 (_ : String) : List (String → String) :=
  [fun column => if column = "name" then "room 11" else "1"]

/-- A number finds a longer one that begins with it. -/
theorem room11_not_counted : ¬ Resolves plainUnicode plainDatabase room11
    PlannedExecution.directoryBundle (PlannedExecution.directoryScope PlannedExecution.allCities)
    ⟨.customer, "customer.name", "room 1", []⟩ "room 1".toList fun view result =>
      result.disposition = dispositionOf ((found plainDatabase view []).filter
        (accepts plainUnicode plainDatabase "room 1".toList)).length := by
  intro claim
  have counted := claim _ _ _ rfl rfl
  revert counted
  decide +kernel

end McpAssistant.BusinessQuery.NameResolution
