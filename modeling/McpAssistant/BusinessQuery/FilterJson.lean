import McpAssistant.BusinessQuery.FilterTree
import McpAssistant.Foundations.JsonReading

/-!
# Filter trees as JSON

A raw filter tree is validated leaf by leaf and group by group: branches that
hold nothing are dropped, and a node is a plain filter, a typed predicate or a
group, whichever its keys fit.  The tree prints with its non-empty branches.
-/

namespace McpAssistant.BusinessQuery.FilterJson

open Definitions FilterTree Foundations.JsonReading

/-- The rules on a plan's derived sets. -/
inductive SetViolation where
  | tooMany (count : Nat)
  | idsNotUnique
  | setOperatorInHaving (set : Option String)
  | unknownSet (set : Option String) (reference : String)
  | notDeclaredBefore (set reference : String)
  | filtersByTimeGroup (set reference : String)
  | timeGroupFiltersBySet (set : String)
  | unreferenced (set : String)
  | nested (set : String)
  | scalar (set : String)
  | projectsOther (set : String)
  | bucketSet (set : String)
  | detailSelections (set : String)
  | periodGranularity (set : String)
  | compareTo (set : String)
  | timeGroupComplete (set : String)
  | timeGroupOneMeasure (set : String)
  | completeOrdered (set : String)
  | completeMeasures (set : String)
  | rankedNotGrouped (set : String)
  | rankedOneMeasure (set : String)
  | rankedLimit (set : String)
  | rankedTwoClauses (set : String)
  | rankedFirstClause (set : String)
  | rankedSecondClause (set : String)
  | pickOneClause (set : String)
  | pickEntityMeasures (set : String)
  | pickEntityBasis (set : String)
  | pickOneMeasure (set : String)
  | pickOtherBasis (set : String)
deriving DecidableEq

/-- The rules of the plan's own validators. -/
inductive PlanRule where
  | operatorArity (operator : FilterOperator)
  | groupRequiresBranch
  | exactlyOneRange
  | betweenOrder
  | setLimit
  | setIdSyntax (id : String)
  | limitRange
  | scalarShape
  | groupedWithoutMeasure
  | groupedWithoutGrouping
  | entityRowsMeasures
  | compareWithoutPeriod
  | compareTimeDimension
  | compareGranularity
  | comparePeriodGranularity
  | compareEntityRows
  | compareOneMeasure
  | derivedSets (violations : List SetViolation)
  | timeGroupingWithoutGranularity (member : String)
  | compareAllTime
  | allTimeWithoutBreakdown
  | anchorNotProjected
deriving DecidableEq

/-- The keys that make a dictionary a leaf. -/
def leafKeys : List String := ["member", "operator", "values", "value"]

mutual

/-- A group whose branches are absent, empty or themselves neutral. -/
def isNeutralGroupNode : Json → Bool
  | .dict entries =>
    (hasKey entries "all" || hasKey entries "any") &&
      !leafKeys.any (hasKey entries) &&
      ((neutralBranches entries).lookup "all").getD true &&
      ((neutralBranches entries).lookup "any").getD true
  | _ => false

def neutralBranches : List (String × Json) → List (String × Bool)
  | [] => []
  | (key, value) :: rest => (key, isNeutralBranch value) :: neutralBranches rest

def isNeutralBranch : Json → Bool
  | .null => true
  | .list items => allNeutral items
  | _ => false

def allNeutral : List Json → Bool
  | [] => true
  | item :: items => isNeutralGroupNode item && allNeutral items

end

/-! ## Leaves -/

def readScalar : Json → Reading PlanRule FilterValue
  | .text value => .ok (.text value)
  | .integer value => .ok (.integer value)
  | .float value printed => .ok (.float value printed)
  | .boolean value => .ok (.boolean value)
  | _ => refuse .wrongType

def dumpScalar : FilterValue → Json
  | .text value => .text value
  | .integer value => .integer value
  | .float value printed => .float value printed
  | .boolean value => .boolean value

def predicateOperators : List (String × FilterOperator) :=
  [("eq", .eq), ("neq", .neq), ("gt", .gt), ("gte", .gte), ("lt", .lt),
    ("lte", .lte), ("in", .isIn), ("not_in", .notIn), ("is_null", .isNull),
    ("not_null", .notNull), ("contains", .contains)]

def filterOperators : List (String × FilterOperator) :=
  predicateOperators ++ [("in_set", .inSet), ("not_in_set", .notInSet)]

def operatorName : FilterOperator → String
  | .eq => "eq"
  | .neq => "neq"
  | .gt => "gt"
  | .gte => "gte"
  | .lt => "lt"
  | .lte => "lte"
  | .isIn => "in"
  | .notIn => "not_in"
  | .isNull => "is_null"
  | .notNull => "not_null"
  | .contains => "contains"
  | .inSet => "in_set"
  | .notInSet => "not_in_set"

def singularValue (entries : Entries) : Entries :=
  match entries.lookup "values", entries.lookup "value" with
  | none, some value =>
    putKey "values" (.list [value]) (eraseKey entries "value")
  | _, _ => eraseKey entries "value"

def planFilterEntries (entries : Entries) : Entries :=
  singularValue
    (match entries.lookup "operator" with
      | some (.text ">") => putKey "operator" (.text "gt") entries
      | _ => entries)

def readPlanFilter (raw : Entries) : Reading PlanRule PlanFilter := do
  let entries := planFilterEntries raw
  let ((member, operator, values), _) ← both
    (both (readField entries "member" none readText)
      (both (readField entries "operator" none (readLiteral filterOperators))
        (readField entries "values" (some []) (readList readScalar))))
    (forbidExtra ["member", "operator", "values"] entries)
  if arity : operator.acceptsValues values = true then
    return ⟨member, operator, values, arity⟩
  else
    refuse (.broken (.operatorArity operator))

def dumpPlanFilter (leaf : PlanFilter) : Entries :=
  [("member", .text leaf.member),
    ("operator", .text (operatorName leaf.operator)),
    ("values", .list (leaf.values.map dumpScalar))]

/-- Of two spellings of a field, the one given stands for the other. -/
def alignSpellings (first second : String) (entries : Entries) : Entries :=
  match entries.lookup first, entries.lookup second with
  | none, some value => putKey first value entries
  | some value, none => putKey second value entries
  | _, _ => entries

def operatorAliases : List (String × String) :=
  [(">", "gt"), (">=", "gte"), ("<", "lt"), ("<=", "lte"), ("=", "eq"),
    ("==", "eq"), ("!=", "neq"), ("<>", "neq")]

/-- An operator that no dictionary can look up raises a `TypeError`. -/
def mapOperator (entries : Entries) : Reading PlanRule Entries :=
  match entries.lookup "operator" with
  | some (.text name) =>
    match operatorAliases.lookup name with
    | some canonical => .ok (putKey "operator" (.text canonical) entries)
    | none => .ok entries
  | some json => if json.hashable then .ok entries else .error .escaped
  | none => .ok entries

def predicateEntries (raw : Entries) : Reading PlanRule Entries :=
  (mapOperator
    (alignSpellings "revision_hash" "definition_revision"
      (alignSpellings "family_key" "attribute_key" raw))).map singularValue

def valueKinds : List (String × PredicateValueKind) :=
  [("integer", .integer), ("numeric", .numeric), ("decimal", .decimal),
    ("currency", .currency), ("string", .string), ("date", .date),
    ("datetime", .datetime), ("boolean", .boolean), ("json", .json)]

def valueKindName : PredicateValueKind → String
  | .integer => "integer"
  | .numeric => "numeric"
  | .decimal => "decimal"
  | .currency => "currency"
  | .string => "string"
  | .date => "date"
  | .datetime => "datetime"
  | .boolean => "boolean"
  | .json => "json"

def quantifiers : List (String × Quantifier) :=
  [("any", .any), ("all", .all), ("exact", .exact)]

def quantifierName : Quantifier → String
  | .any => "any"
  | .all => "all"
  | .exact => "exact"

def predicateKeys : List String :=
  ["family_key", "attribute_key", "revision_hash", "definition_revision",
    "value_kind", "operator", "values", "quantifier"]

def readAttributePredicate (raw : Entries) : Reading PlanRule AttributePredicate := do
  let entries ← predicateEntries raw
  let ((family, attributeName, revision, definition, kind, operator, values, quantifier), _) ← both
    (both (readField entries "family_key" none readText)
      (both (readField entries "attribute_key" (some none)
          (readNullable readText))
        (both (readField entries "revision_hash" (some none)
            (readNullable readText))
          (both (readField entries "definition_revision" (some none)
              (readNullable readText))
            (both (readField entries "value_kind" (some .integer)
                (readLiteral valueKinds))
              (both (readField entries "operator" none
                  (readLiteral predicateOperators))
                (both (readField entries "values" (some [])
                    (readList readScalar))
                  (readField entries "quantifier" (some .any) (readLiteral quantifiers)))))))))
    (forbidExtra predicateKeys entries)
  if arity : operator.isSet = false ∧ operator.acceptsValues values = true then
    return ⟨family, revision, operator, values, arity.1, arity.2, attributeName,
      definition, kind, quantifier⟩
  else
    refuse (.broken (.operatorArity operator))

def dumpAttributePredicate (predicate : AttributePredicate) : Entries :=
  [("family_key", .text predicate.familyKey),
    ("attribute_key", dumpNullable .text predicate.attributeKey),
    ("revision_hash", dumpNullable .text predicate.revisionHash),
    ("definition_revision", dumpNullable .text predicate.definitionRevision),
    ("value_kind", .text (valueKindName predicate.valueKind)),
    ("operator", .text (operatorName predicate.operator)),
    ("values", .list (predicate.values.map dumpScalar)),
    ("quantifier", .text (quantifierName predicate.quantifier))]

/-- The keys a filter group has. -/
def branchKeys : List String := ["all", "any"]

def readGroupParts (entries : Entries)
    (branches : List (String × Reading PlanRule (List FilterNode))) :
    Reading PlanRule FilterGroup :=
  if hasKey entries "all" || hasKey entries "any" then
    (both
      (both ((branches.lookup "all").getD (.ok [])) ((branches.lookup "any").getD (.ok [])))
      (forbidExtra branchKeys entries)).map fun parts =>
        ⟨parts.1.1, parts.1.2⟩
  else
    refuse (.broken .groupRequiresBranch)

mutual

def readFilterNode : Json → Reading PlanRule FilterNode
  | .dict entries =>
    oneOf ((readPlanFilter entries).map fun leaf => .leaf (.filter leaf))
      ((readAttributePredicate entries).map fun typed =>
        .leaf (.predicate typed))
      ((readGroupParts entries (readFilterBranches entries)).map fun group =>
        .group group.all group.any)
  | _ => refuse .wrongType

def readFilterBranches : List (String × Json) → List (String × Reading PlanRule (List FilterNode))
  | [] => []
  | (key, value) :: rest => (key, readFilterBranch value) :: readFilterBranches rest

def readFilterBranch : Json → Reading PlanRule (List FilterNode)
  | .list items => readFilterNodes items
  | _ => refuse .wrongType

def readFilterNodes : List Json → Reading PlanRule (List FilterNode)
  | [] => .ok []
  | item :: items =>
    if isNeutralGroupNode item then readFilterNodes items
    else
      (both (readFilterNode item) (readFilterNodes items)).map fun parts =>
        parts.1 :: parts.2

end

def readFilterGroup : Json → Reading PlanRule FilterGroup
  | .dict entries => readGroupParts entries (readFilterBranches entries)
  | _ => refuse .wrongType

/-- Only the branches that hold something are printed. -/
def branchEntries (all any : List Json) : Entries :=
  (if all.isEmpty then [] else [("all", .list all)]) ++
    if any.isEmpty then [] else [("any", .list any)]

def dumpFilterLeaf : FilterLeaf → Entries
  | .filter leaf => dumpPlanFilter leaf
  | .predicate typed => dumpAttributePredicate typed

mutual

def dumpFilterNode : FilterNode → Json
  | .leaf leaf => .dict (dumpFilterLeaf leaf)
  | .group all any =>
    .dict (branchEntries (dumpFilterNodes all) (dumpFilterNodes any))

def dumpFilterNodes : List FilterNode → List Json
  | [] => []
  | node :: nodes => dumpFilterNode node :: dumpFilterNodes nodes

end

def dumpFilterGroup (group : FilterGroup) : Json :=
  .dict (branchEntries (dumpFilterNodes group.all) (dumpFilterNodes group.any))

end McpAssistant.BusinessQuery.FilterJson
