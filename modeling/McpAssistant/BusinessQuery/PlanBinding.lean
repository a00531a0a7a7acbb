import McpAssistant.BusinessQuery.Scoping

/-!
# Binding a looked-up value

A `contains` filter on a resolvable member names a record by text.  The lookup
finds the record, and the filter becomes an equality on the record's identity
member.
-/

namespace McpAssistant.BusinessQuery.PlanBinding

open Definitions FilterTree QueryPlan

/-- The characters Python's `strip` removes. -/
def isPySpace (letter : Char) : Bool :=
  let code := letter.toNat
  decide (9 ≤ code ∧ code ≤ 13) || decide (28 ≤ code ∧ code ≤ 32) ||
    decide (0x2000 ≤ code ∧ code ≤ 0x200A) ||
    [0x85, 0xA0, 0x1680, 0x2028, 0x2029, 0x202F, 0x205F, 0x3000].contains code

def pyStrip (letters : List Char) : List Char :=
  ((letters.dropWhile isPySpace).reverse.dropWhile isPySpace).reverse

def strip (text : String) : String :=
  String.ofList (pyStrip text.toList)

/-- Reads on after a digit: more digits, one underscore allowed between two. -/
def digitRun (value : Nat) : List Char → Nat × List Char
  | [] => (value, [])
  | '_' :: letter :: letters =>
    if letter.isDigit then
      digitRun (value * 10 + (letter.toNat - 48)) letters
    else
      (value, '_' :: letter :: letters)
  | letter :: letters =>
    if letter.isDigit then
      digitRun (value * 10 + (letter.toNat - 48)) letters
    else
      (value, letter :: letters)

def digitPart : List Char → Option (Nat × List Char)
  | letter :: letters =>
    if letter.isDigit then some (digitRun (letter.toNat - 48) letters) else none
  | [] => none

/-- Reads an optional sign; the result says whether it was a minus. -/
def signPart : List Char → Bool × List Char
  | '-' :: letters => (true, letters)
  | '+' :: letters => (false, letters)
  | letters => (false, letters)

/-- Python's `int` on a decimal text. -/
def pyInt (text : String) : Option Int :=
  let (negative, letters) := signPart (pyStrip text.toList)
  match digitPart letters with
  | some (value, []) => some (if negative then -(value : Int) else value)
  | _ => none

def endsInExponent : List Char → Bool
  | [] => true
  | letter :: letters =>
    if letter.toLower = 'e' then
      match digitPart (signPart letters).2 with
      | some (_, []) => true
      | _ => false
    else
      false

/-- Whether Python's `float` accepts a text. -/
def readsAsFloat (text : String) : Bool :=
  let letters := (signPart (pyStrip text.toList)).2
  if ["inf", "infinity", "nan"].contains
      (String.ofList (letters.map Char.toLower)) then
    true
  else
    match digitPart letters with
    | some (_, '.' :: rest) =>
      match digitPart rest with
      | some (_, rest) => endsInExponent rest
      | none => endsInExponent rest
    | some (_, rest) => endsInExponent rest
    | none =>
      match letters with
      | '.' :: rest =>
        match digitPart rest with
        | some (_, rest) => endsInExponent rest
        | none => false
      | _ => false

abbrev PlanPath := List String

def iterPlanNodes (plan : BusinessQueryPlan) : List (PlanPath × BusinessQueryPlan) :=
  ([], plan) :: plan.derivedSets.map fun item => ([item.id], item.plan)

structure ResolverLookup where
  valueType : ResolvableAs
  member : String
  rawValue : String
  path : PlanPath := []
deriving DecidableEq

/-- The dimension a dictionary over the dimensions keeps for a name. -/
def dimensionNamed (bundle : DefinitionBundle) (name : String) : Option DimensionDefinition :=
  bundle.dimensions.reverse.find? fun dimension => dimension.name == name

/-- The members whose values a lookup can resolve; a later entry of a name
replaces an earlier one. -/
def resolvableMembers (bundle : DefinitionBundle) : List (String × ResolvableAs) :=
  (bundle.capabilities.filterMap fun entry =>
    if entry.kind = .dimension then
      (dimensionNamed bundle entry.resolvesTo).bind fun dimension =>
        dimension.resolvableAs.map fun valueType => (entry.name, valueType)
    else
      none).reverse

def leafLookup (bundle : DefinitionBundle) (path : PlanPath)
    (leaf : PlanFilter) : Option ResolverLookup :=
  match leaf.operator, leaf.values with
  | .contains, [.text raw] =>
    ((resolvableMembers bundle).lookup leaf.member).map fun valueType =>
      ⟨valueType, leaf.member, raw, path⟩
  | _, _ => none

def findResolverLookups (plan : BusinessQueryPlan)
    (bundle : DefinitionBundle) : List ResolverLookup :=
  (iterPlanNodes plan).flatMap fun (path, node) =>
    (planFilters (iterFilterLeaves node.filters)).filterMap (leafLookup bundle path)

def valueTypeName : ResolvableAs → String
  | .customer => "customer"
  | .product => "product"
  | .department => "department"

/-- The id column of the owning view, and the member to bind if there is one:
the primary key of the looked-up kind's own resource, else the owner's typed
id when the lookup is on its typed name. -/
def lookupIdentity (lookup : ResolverLookup) (bundle : DefinitionBundle) :
    Except String (String × Option String) :=
  match bundle.dimensions.find? fun item => item.name == lookup.member with
  | none =>
    .error "lookup member is not a resolvable dimension of this bundle"
  | some dimension =>
    match bundle.resources.find? fun item =>
        item.name == dimension.owningResource with
    | none => .error "lookup member has no resource binding"
    | some binding =>
      let kind := valueTypeName lookup.valueType
      let owner := dimension.owningResource
      if owner = kind then
        let pkMember := binding.name ++ "." ++ binding.primaryKey
        .ok (binding.primaryKey, (dimensionNamed bundle pkMember).map fun _ => pkMember)
      else
        match dimensionNamed bundle (owner ++ "." ++ kind ++ "_id") with
        | some typed =>
          if strip typed.sqlExpression ≠ "" ∧
              (lookup.member = owner ++ "." ++ kind ++ "_name" ∨
                strip dimension.sqlExpression = kind ++ "_name") then
            .ok (strip typed.sqlExpression, some typed.name)
          else
            .ok (strip dimension.sqlExpression, none)
        | none => .ok (strip dimension.sqlExpression, none)

def exactTarget (lookup : ResolverLookup) (canonical : String)
    (bundle : DefinitionBundle) : Except String (String × FilterValue) := do
  let (_, identityMember) ← lookupIdentity lookup bundle
  match identityMember with
  | none => return (lookup.member, .text canonical)
  | some member =>
    match bundle.dimensions.find? fun item => item.name == member with
    | some ⟨_, _, _, .number, _, _, _, _⟩ =>
      match pyInt canonical with
      | some value => return (member, .integer value)
      | none => throw "invalid literal for int() with base 10"
    | _ => return (member, .text canonical)

mutual

/-- Rewrites every leaf; a group left without children disappears. -/
def mapFilterNode (transform : FilterLeaf → FilterLeaf) : FilterNode → Option FilterNode
  | .leaf leaf => some (.leaf (transform leaf))
  | .group all any =>
    let newAll := mapFilterNodes transform all
    let newAny := mapFilterNodes transform any
    if newAll.isEmpty && newAny.isEmpty then none else some (.group newAll newAny)

def mapFilterNodes (transform : FilterLeaf → FilterLeaf) : List FilterNode → List FilterNode
  | [] => []
  | node :: nodes =>
    match mapFilterNode transform node with
    | some mapped => mapped :: mapFilterNodes transform nodes
    | none => mapFilterNodes transform nodes

end

/-- Rewrites a plan's filter tree. -/
def mapFilterTree (transform : FilterLeaf → FilterLeaf) (group : FilterGroup) :
    Option FilterGroup :=
  let newAll := mapFilterNodes transform group.all
  let newAny := mapFilterNodes transform group.any
  if newAll.isEmpty && newAny.isEmpty then none else some ⟨newAll, newAny⟩

def bindLeaf (member target : String) (canonical : FilterValue) : FilterLeaf → FilterLeaf
  | .filter leaf =>
    if leaf.member = member ∧ leaf.operator = .contains then
      .filter ⟨target, .eq, [canonical], acceptsValues_single canonical⟩
    else
      .filter leaf
  | leaf => leaf

def mapNodeFilters (transform : FilterLeaf → FilterLeaf)
    (plan : BusinessQueryPlan) : Except String BusinessQueryPlan :=
  match plan.filters with
  | none => .ok plan
  | some group =>
    match mapFilterTree transform group with
    | some bound => .ok { plan with filters := some bound }
    | none => .error "filter binding must preserve the filter group"

def replacePlanAtPath (plan : BusinessQueryPlan) (path : PlanPath)
    (replacement : BusinessQueryPlan) : Except String BusinessQueryPlan :=
  match path with
  | [] => .ok replacement
  | [id] =>
    if id ∈ plan.derivedSets.map DerivedSet.id then
      .ok { plan with
        derivedSets := plan.derivedSets.map fun item =>
          if item.id = id then { item with plan := replacement } else item }
    else
      .error "Unknown plan path"
  | _ => .error "Unknown or deep plan path"

/-- The node a dictionary over the plan's nodes keeps for a path. -/
def planAtPath (plan : BusinessQueryPlan) (path : PlanPath) : Option BusinessQueryPlan :=
  (iterPlanNodes plan).reverse.lookup path

def bindExactFilter (plan : BusinessQueryPlan) (member : String)
    (canonical : FilterValue) (path : PlanPath) (target : String) :
    Except String BusinessQueryPlan :=
  match path with
  | [] => mapNodeFilters (bindLeaf member target canonical) plan
  | path =>
    match planAtPath plan path with
    | none => .error "Unknown plan path"
    | some subplan => do
      let updated ← mapNodeFilters (bindLeaf member target canonical) subplan
      replacePlanAtPath plan path updated

def bindResolvedIdentity (plan : BusinessQueryPlan) (lookup : ResolverLookup)
    (canonical : String) (bundle : DefinitionBundle) :
    Except String BusinessQueryPlan := do
  let (target, value) ← exactTarget lookup canonical bundle
  bindExactFilter plan lookup.member value lookup.path target

end McpAssistant.BusinessQuery.PlanBinding
