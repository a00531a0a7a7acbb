import McpAssistant.BusinessQuery.Outcomes
import McpAssistant.BusinessQuery.Scopes

/-!
# Set keys

A set filter compares an outer member with the key of a derived set.  It is
allowed when both reach the same declared primary key, or when the set selects
calendar periods of that very member.
-/

namespace McpAssistant.BusinessQuery.SetKeys

open Definitions FilterTree QueryPlan Scopes Outcomes

/-- Characters Python's `strip` removes. -/
def isSpace (letter : Char) : Bool :=
  let code := letter.toNat
  (9 ≤ code && code ≤ 13) || (28 ≤ code && code ≤ 32) || code == 0x85 ||
    code == 0xA0 || code == 0x1680 || (0x2000 ≤ code && code ≤ 0x200A) ||
    code == 0x2028 || code == 0x2029 || code == 0x202F || code == 0x205F ||
    code == 0x3000

def strip (letters : List Char) : List Char :=
  ((letters.dropWhile isSpace).reverse.dropWhile isSpace).reverse

/-- An ASCII identifier. -/
def isSqlIdentifier (letters : List Char) : Bool :=
  let isStart (letter : Char) : Bool :=
    (letter.toNat < 128 && letter.isAlpha) || letter == '_'
  match letters with
  | [] => false
  | first :: rest =>
    isStart first && rest.all fun letter => isStart letter || letter.isDigit

/-- The two column names of a join condition of the form `left = right`. -/
def joinColumns (onSql : String) : Option (String × String) :=
  let letters := onSql.toList
  let left := letters.takeWhile (· != '=')
  match letters.dropWhile (· != '=') with
  | [] => none
  | _ :: right =>
    if isSqlIdentifier (strip left) && isSqlIdentifier (strip right) then
      some (String.ofList (strip left), String.ofList (strip right))
    else
      none

def maxKeyHops : Nat := 2

/-- A physical column of a resource. -/
abbrev KeyColumn := String × String

def nextHop (join : JoinDefinition) (current : KeyColumn) : Option KeyColumn :=
  match joinColumns join.onSql with
  | none => none
  | some (fromColumn, toColumn) =>
    if join.relationship ≠ .oneToMany ∧ join.fromResource = current.1 ∧ fromColumn = current.2 then
      some (join.toResource, toColumn)
    else if join.relationship ≠ .manyToOne ∧ join.toResource = current.1 ∧ toColumn = current.2 then
      some (join.fromResource, fromColumn)
    else
      none

def isPrimaryKeyColumn (bundle : DefinitionBundle) (column : KeyColumn) : Bool :=
  ((resourceNamed bundle column.1).map ResourceBinding.primaryKey) == some column.2

/-- The walk's state: visited columns, reached primary keys, and the columns of
the next level. -/
structure KeyWalk where
  visited : List KeyColumn
  reached : List KeyColumn
  next : List KeyColumn

def visitJoins (bundle : DefinitionBundle) (current : KeyColumn) :
    List JoinDefinition → KeyWalk → KeyWalk
  | [], walk => walk
  | join :: joins, walk =>
    visitJoins bundle current joins <|
      match nextHop join current with
      | none => walk
      | some column =>
        if column ∈ walk.visited then
          walk
        else if isPrimaryKeyColumn bundle column then
          ⟨column :: walk.visited, column :: walk.reached, walk.next⟩
        else
          ⟨column :: walk.visited, walk.reached, walk.next ++ [column]⟩

/-- The queue holds one level after another; a column at the hop bound is not
expanded. -/
def walkLevels (bundle : DefinitionBundle) : Nat → List KeyColumn → KeyWalk → List KeyColumn
  | 0, _, walk => walk.reached
  | hops + 1, level, walk =>
    let after := level.foldl (fun walk current => visitJoins bundle current bundle.joins walk)
      ⟨walk.visited, walk.reached, []⟩
    walkLevels bundle hops after.next after

/-- The one declared primary key a physical column reaches. -/
def resolvePkIdentity (bundle : DefinitionBundle) (resource column : String) :
    Except Raised KeyColumn :=
  if isSqlIdentifier column.toList then
    match resourceNamed bundle resource with
    | none => .error (unexpressible "set_key_identity")
    | some binding =>
      if binding.primaryKey = column then
        .ok (resource, column)
      else
        match walkLevels bundle maxKeyHops [(resource, column)] ⟨[(resource, column)], [], []⟩ with
        | [key] => .ok key
        | _ => .error (unexpressible "set_key_identity")
  else
    .error (unexpressible "set_key_identity")

def resolveDimension (bundle : DefinitionBundle) (member : String) :
    Except Raised DimensionDefinition :=
  match capabilityNamed bundle member with
  | none => .error (refused .memberNotFound)
  | some entry =>
    if entry.kind = .dimension then
      match bundle.dimensions.find? fun dimension =>
          dimension.name == entry.resolvesTo with
      | none => .error (unexpressible "set_key_identity")
      | some dimension => .ok dimension
    else
      .error (unexpressible "set_key_identity")

/-- A monetary measure of a set must be held to one currency.  Dictionaries over
capabilities and measures keep the last entry of a name. -/
def assertMonetaryMeasure (bundle : DefinitionBundle) (inner : PlanNode)
    (measureName : String) : Except Raised Unit :=
  let target :=
    match bundle.capabilities.reverse.find? fun entry =>
        entry.name == measureName with
    | some entry => entry.resolvesTo
    | none => measureName
  match bundle.measures.reverse.find? fun measure => measure.name == target with
  | none => .ok ()
  | some measure =>
    match measure.currencyDimension with
    | none =>
      if measure.format = some .currency then
        .error (refused .capabilityDisabled)
      else
        .ok ()
    | some currency =>
      if bundle.capabilities.any fun entry =>
          entry.kind == .dimension && entry.resolvesTo == currency &&
            (guaranteedSingleEquality inner.filters entry.name).isSome then
        .ok ()
      else
        .error (unexpressible "set_currency_partition")

def assertMonetaryCurrencyPartition (bundle : DefinitionBundle)
    (inner : PlanNode) : Except Raised Unit :=
  inner.measures.forM (assertMonetaryMeasure bundle inner)

/-- A pick over groups orders by its one measure; a pick over rows orders by a
dimension of the key's own resource. -/
def assertPickShape (bundle : DefinitionBundle) (key : String)
    (inner : PlanNode) : Except Raised Unit :=
  match inner.order with
  | [] => .error (unexpressible "set_grain")
  | basis :: _ =>
    if inner.grain = .grouped then
      if inner.measures = [basis.member] then
        .ok ()
      else
        .error (unexpressible "set_grain")
    else if inner.measures = [] then do
      let keyDimension ← resolveDimension bundle key
      let basisDimension ← resolveDimension bundle basis.member
      if basisDimension.owningResource = keyDimension.owningResource then
        .ok ()
      else
        .error (unexpressible "pick_basis_resource")
    else
      .error (unexpressible "set_grain")

def assertTimeGroupCompatible (bundle : DefinitionBundle) (outerMember : String)
    (mode : SetMode) (key : String) (inner : PlanNode) (exclude : Bool) :
    Except Raised Unit := do
  if exclude then
    throw (unexpressible "time_group_exclusion")
  if outerMember ≠ key then
    throw (unexpressible "time_group_member_mismatch")
  if (← resolveDimension bundle outerMember).type ≠ .time then
    throw (unexpressible "set_key_type_mismatch")
  if mode = .pick then
    assertPickShape bundle key inner
  assertMonetaryCurrencyPartition bundle inner

/-- The structural rule a set mode adds to an entity key. -/
def assertEntityShape (bundle : DefinitionBundle) (mode : SetMode)
    (key : String) (inner : PlanNode) : Except Raised Unit :=
  match mode with
  | .ranked =>
    if inner.grain ≠ .grouped ∨ inner.measures.length ≠ 1 then
      .error (unexpressible "set_grain")
    else
      .ok ()
  | .pick => assertPickShape bundle key inner
  | .complete =>
    if inner.grain = .entityRows ∧ inner.measures ≠ [] then
      .error (unexpressible "set_grain")
    else
      .ok ()

def assertEntityKeyCompatible (bundle : DefinitionBundle) (outerMember : String)
    (mode : SetMode) (key : String) (inner : PlanNode) :
    Except Raised Unit := do
  assertEntityShape bundle mode key inner
  let outer ← resolveDimension bundle outerMember
  let keyDimension ← resolveDimension bundle key
  if outer.type ≠ keyDimension.type then
    throw (unexpressible "set_key_type_mismatch")
  if outer.valueKind.isSome && keyDimension.valueKind.isSome &&
      outer.valueKind != keyDimension.valueKind then
    throw (unexpressible "set_key_type_mismatch")
  assertMonetaryCurrencyPartition bundle inner
  let outerKey ← resolvePkIdentity bundle outer.owningResource outer.sqlExpression
  let innerKey ← resolvePkIdentity bundle keyDimension.owningResource keyDimension.sqlExpression
  if outerKey ≠ innerKey then
    throw (unexpressible "set_key_identity")

/-- The outer filter may use the set: an entity identity or the same time
bucket. -/
def assertSetKeyCompatible (bundle : DefinitionBundle) (outerMember : String)
    (item : ScopedDerivedSet ScopedPlan) (exclude : Bool) :
    Except Raised Unit :=
  let inner := item.scopedPlan.plan
  if inner.dimensions ≠ [item.key] then
    .error (unexpressible "set_grain")
  else if inner.grain = .scalar then
    .error (unexpressible "set_grain")
  else if !inner.derivedSets.isEmpty then
    .error (unexpressible "set_grain")
  else if (timeGroupFor item.key inner.toPlanNode).isSome then
    assertTimeGroupCompatible bundle outerMember item.mode item.key inner.toPlanNode exclude
  else
    assertEntityKeyCompatible bundle outerMember item.mode item.key inner.toPlanNode

end McpAssistant.BusinessQuery.SetKeys
