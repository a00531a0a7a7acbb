import McpAssistant.BusinessQuery.PlanNormalization

/-!
# Validating a plan

A raw plan is normalized, its fields are read side by side, and the plan they
make is checked as a whole: its grain, its comparison, its derived sets, its
breakdown by time and its anchor.  A set's plan is validated like the plan
itself.
-/

namespace McpAssistant.BusinessQuery.PlanValidation

open FilterTree QueryPlan FilterJson PlanJson PlanNormalization
  Foundations.JsonReading

def maxDerivedSets : Nat := 3

/-- The index of a declared id; of one declared twice, the last. -/
def setPosition (declared : List String) (id : String) : Option Nat :=
  (declared.zipIdx.reverse.find? fun entry => entry.1 == id).map Prod.snd

section Sets

variable (sets : List (DerivedSet BusinessQueryPlan))

/-- What a reference in a set's own filters breaks. -/
def setReferenceViolations (index : Nat) (item : DerivedSet BusinessQueryPlan)
    (reference : String) : List SetViolation :=
  match setPosition (sets.map DerivedSet.id) reference with
  | none => [.unknownSet (some item.id) reference]
  | some position =>
    if index ≤ position then [.notDeclaredBefore item.id reference]
    else
      match sets[position]? with
      | none => []
      | some target =>
        if (timeGroupFor target.key target.plan.toPlanNode).isSome then
          [.filtersByTimeGroup item.id reference]
        else []

def setItemViolations (entry : DerivedSet BusinessQueryPlan × Nat) : List SetViolation :=
  let item := entry.1
  let references := setReferenceIds item.plan.filters
  references.flatMap (setReferenceViolations sets entry.2 item) ++
    (if setReferenceIds item.plan.having ≠ [] then
      [.setOperatorInHaving (some item.id)] else []) ++
    if references ≠ [] ∧ (timeGroupFor item.key item.plan.toPlanNode).isSome then
      [.timeGroupFiltersBySet item.id]
    else []

def timeGroupViolations (item : DerivedSet BusinessQueryPlan) : List SetViolation :=
  (if item.mode = .complete then [.timeGroupComplete item.id] else []) ++
    if item.plan.grain ≠ .grouped ∨ item.plan.measures.length ≠ 1 then
      [.timeGroupOneMeasure item.id]
    else []

def disallowedInnerClauses (item : DerivedSet BusinessQueryPlan)
    (timeGroup : Bool) : List SetViolation :=
  let inner := item.plan
  (if inner.bucketSet.isSome then [.bucketSet item.id] else []) ++
    (if inner.detailSelections ≠ [] then [.detailSelections item.id] else []) ++
    (if (inner.period.bind BusinessPeriod.granularity).isSome && !timeGroup then
      [.periodGranularity item.id] else []) ++
    if inner.compareTo.isSome then [.compareTo item.id] else []

def completeViolations (item : DerivedSet BusinessQueryPlan) : List SetViolation :=
  (if item.plan.order ≠ [] then [.completeOrdered item.id] else []) ++
    if item.plan.grain = .entityRows ∧ item.plan.measures ≠ [] then
      [.completeMeasures item.id]
    else []

def rankedViolations (item : DerivedSet BusinessQueryPlan) : List SetViolation :=
  let inner := item.plan
  (if inner.grain ≠ .grouped then [.rankedNotGrouped item.id] else []) ++
    (if inner.measures.length ≠ 1 then [.rankedOneMeasure item.id] else []) ++
    (if inner.limit < 1 ∨ 50 < inner.limit then [.rankedLimit item.id] else []) ++
    match inner.order with
    | [first, second] =>
      (if first.member ≠ inner.measures.headD "" ∨ first.direction ≠ .desc then
        [.rankedFirstClause item.id] else []) ++
        if second.member ≠ item.key ∨ second.direction ≠ .asc then
          [.rankedSecondClause item.id]
        else []
    | _ => [.rankedTwoClauses item.id]

/-- A pick's order without the key ascending, its tiebreak. -/
def pickClauses (item : DerivedSet BusinessQueryPlan) : List OrderClause :=
  match item.plan.order with
  | [first, second] =>
    if second.member = item.key ∧ second.direction = .asc then [first]
    else [first, second]
  | clauses => clauses

def pickViolations (item : DerivedSet BusinessQueryPlan) : List SetViolation :=
  let inner := item.plan
  match pickClauses item with
  | [clause] =>
    if inner.grain = .entityRows then
      (if inner.measures ≠ [] then [.pickEntityMeasures item.id] else []) ++
        if inner.measures.contains clause.member then [.pickEntityBasis item.id]
        else []
    else
      match inner.measures with
      | [measure] =>
        if clause.member ≠ measure then [.pickOtherBasis item.id] else []
      | _ => [.pickOneMeasure item.id]
  | _ => [.pickOneClause item.id]

def innerShapeViolations (item : DerivedSet BusinessQueryPlan) : List SetViolation :=
  let inner := item.plan
  let timeGroup := (timeGroupFor item.key inner.toPlanNode).isSome
  (if inner.derivedSets.isEmpty then [] else [.nested item.id]) ++
    (if inner.grain = .scalar then [.scalar item.id] else []) ++
    (if inner.dimensions ≠ [item.key] then [.projectsOther item.id] else []) ++
    disallowedInnerClauses item timeGroup ++
    (if timeGroup then timeGroupViolations item else []) ++
    match item.mode with
    | .complete => completeViolations item
    | .ranked => rankedViolations item
    | .pick => pickViolations item

end Sets

def derivedSetViolations (plan : BusinessQueryPlan) : List SetViolation :=
  let sets := plan.derivedSets
  let declared := sets.map DerivedSet.id
  let references := setReferenceIds plan.filters
  let referenced := (if sets.isEmpty then [] else references) ++
    sets.flatMap fun item => setReferenceIds item.plan.filters
  (if maxDerivedSets < sets.length then [.tooMany sets.length] else []) ++
    (if declared.Nodup then [] else [.idsNotUnique]) ++
    (if setReferenceIds plan.having ≠ [] then [.setOperatorInHaving none]
      else []) ++
    (if sets.isEmpty then [] else
      (references.filter fun reference => !declared.contains reference).map (.unknownSet none)) ++
    sets.zipIdx.flatMap (setItemViolations sets) ++
    (declared.filter fun id => !referenced.contains id).map .unreferenced ++
    sets.flatMap innerShapeViolations

def demand (holds : Bool) (rule : PlanRule) : Reading PlanRule Unit :=
  if holds then .ok () else refuse (.broken rule)

def comparePeriodShape (period : BusinessPeriod) : CompareTo → Reading PlanRule Unit
  | .period other => do
      demand (other.timeDimension == period.timeDimension) .compareTimeDimension
      demand other.granularity.isNone .compareGranularity
  | _ => .ok ()

def comparisonShape (plan : PlanNode) : Reading PlanRule Unit :=
  match plan.compareTo, plan.period with
  | none, _ => .ok ()
  | some _, none => refuse (.broken .compareWithoutPeriod)
  | some compareTo, some period => do
      comparePeriodShape period compareTo
      demand period.granularity.isNone .comparePeriodGranularity
      demand (plan.grain != .entityRows) .compareEntityRows
      demand (plan.measures.length == 1) .compareOneMeasure

/-- An empty bucket set's name counts as none. -/
def hasBucketSet (plan : PlanNode) : Bool :=
  plan.bucketSet.any (· ≠ "")

def grainShape (plan : BusinessQueryPlan) : Reading PlanRule Unit := do
  let grouping := !plan.dimensions.isEmpty || hasBucketSet plan.toPlanNode
  demand (plan.grain != .scalar || plan.measures.length == 1 && !grouping) .scalarShape
  demand (plan.grain != .grouped || !plan.measures.isEmpty) .groupedWithoutMeasure
  demand (plan.grain != .grouped || grouping) .groupedWithoutGrouping
  demand (plan.grain != .entityRows || plan.measures.isEmpty) .entityRowsMeasures
  comparisonShape plan.toPlanNode
  demand (derivedSetViolations plan).isEmpty (.derivedSets (derivedSetViolations plan))

def rawTimeDimension (plan : PlanNode) (times : List String) : Option String :=
  if plan.grain = .grouped then
    plan.dimensions.find? fun member =>
      (times.contains member || plan.period.any fun period => period.timeDimension == member) &&
      !plan.period.any fun period =>
        period.granularity.isSome && period.timeDimension == member
  else
    none

def timeGroupingNamesAGranularity (times : List String) (plan : PlanNode) : Reading PlanRule Unit :=
  match rawTimeDimension plan times with
  | none => .ok ()
  | some member => refuse (.broken (.timeGroupingWithoutGranularity member))

def allTimeIsABreakdownByTime (plan : PlanNode) : Reading PlanRule Unit := do
  demand (!plan.compareTo.any fun compareTo =>
    match compareTo with
    | .period period => period.range == .relative .allTime
    | _ => false) .compareAllTime
  demand (plan.period.all fun period =>
    period.range != .relative .allTime || plan.grain == .grouped && period.granularity.isSome &&
        plan.dimensions.contains period.timeDimension) .allTimeWithoutBreakdown

/-- The resource a member's name starts with. -/
def ownerOf (member : String) : String :=
  String.ofList (member.toList.takeWhile fun letter => letter ≠ '.')

def anchorIsProjected (plan : PlanNode) : Reading PlanRule Unit :=
  demand (plan.anchor.all fun anchor =>
    ((plan.dimensions ++ plan.measures).map ownerOf).contains anchor)
    .anchorNotProjected

def checkPlan (times : List String) (plan : BusinessQueryPlan) : Reading PlanRule Unit := do
  grainShape plan
  timeGroupingNamesAGranularity times plan.toPlanNode
  allTimeIsABreakdownByTime plan.toPlanNode
  anchorIsProjected plan.toPlanNode

def readNullAsEmpty {Value : Type} (read : Json → Reading PlanRule Value) :
    Json → Reading PlanRule (List Value)
  | .null => .ok []
  | json => readList read json

def readLimit : Json → Reading PlanRule Nat
  | .null => .ok 20
  | .integer limit =>
    if minPlanLimit ≤ limit ∧ limit ≤ maxPlanLimit then .ok limit.toNat
    else refuse (.broken .limitRange)
  | _ => refuse .wrongType

def planKeys : List String :=
  ["measures", "dimensions", "bucket_set", "anchor", "filters", "having",
    "period", "compare_to", "grain", "order", "attribute_predicates",
    "detail_selections", "limit", "derived_sets"]

def readTypedPredicate : Json → Reading PlanRule AttributePredicate
  | .dict entries => readAttributePredicate entries
  | _ => refuse .wrongType

def readPlanNode (instants : InstantReader) (entries : Entries) : Reading PlanRule PlanNode :=
  (both (readField entries "measures" (some []) (readNullAsEmpty readText))
    (both (readField entries "dimensions" (some []) (readNullAsEmpty readText))
      (both (readField entries "bucket_set" (some none) (readNullable readText))
        (both (readField entries "anchor" (some none) (readNullable readText))
          (both (readField entries "filters" (some none)
              (readNullable readFilterGroup))
            (both (readField entries "having" (some none)
                (readNullable readFilterGroup))
              (both (readField entries "period" (some none)
                  (readNullable readPeriod))
                (both (readField entries "compare_to" (some none)
                    (readNullable readCompareTo))
                  (both (readField entries "grain" none (readLiteral grains))
                    (both (readField entries "order" (some [])
                        (readNullAsEmpty readOrderClause))
                      (both (readField entries "attribute_predicates" (some [])
                          (readList readTypedPredicate))
                        (both (readField entries "detail_selections" (some [])
                            (readNullAsEmpty (readDetailSelection instants)))
                          (readField entries "limit" (some 20) readLimit))))))))))))).map
    fun (measures, dimensions, bucketSet, anchor, filters, having, period,
        compareTo, grain, order, predicates, selections, limit) =>
      { measures, dimensions, bucketSet, anchor, filters, having, period,
        compareTo, grain, order, attributePredicates := predicates,
        detailSelections := selections, limit }

/-- An ordered set's raw plan states its limit. -/
def statesLimit (entries : Entries) : Reading PlanRule Unit :=
  match entries.lookup "mode" with
  | some (.text mode) =>
    if mode = "pick" ∨ mode = "ranked" then
      match entries.lookup "plan" with
      | some (.dict plan) =>
        match plan.lookup "limit" with
        | some (.integer limit) =>
          demand (minPlanLimit ≤ limit ∧ limit ≤ maxPlanLimit) .setLimit
        | _ => refuse (.broken .setLimit)
      | _ => refuse (.broken .setLimit)
    else .ok ()
  | some json => if json.hashable then .ok () else .error .escaped
  | none => .ok ()

def isLetter (letter : Char) : Bool :=
  ('a' ≤ letter && letter ≤ 'z') || ('A' ≤ letter && letter ≤ 'Z')

def isWordLetter (letter : Char) : Bool :=
  isLetter letter || ('0' ≤ letter && letter ≤ '9') || letter == '_'

/-- A letter and up to 31 word letters; a pattern's end also matches before a
final newline. -/
def isSetId (id : String) : Bool :=
  match id.toList with
  | [] => false
  | first :: rest =>
    let body := if rest.getLast? = some '\n' then rest.dropLast else rest
    isLetter first && body.length ≤ 31 && body.all isWordLetter

def readSetId (json : Json) : Reading PlanRule String := do
  let id ← readText json
  demand (isSetId id) (.setIdSyntax id)
  return id

def setKeys : List String := ["id", "mode", "key", "plan"]

def readSetParts (entries : Entries) (plans : List (String × Reading PlanRule BusinessQueryPlan)) :
    Reading PlanRule (DerivedSet BusinessQueryPlan) := do
  statesLimit entries
  let ((id, mode, key, plan), _) ← both
    (both (readField entries "id" none readSetId)
      (both (readField entries "mode" none (readLiteral setModes))
        (both (readField entries "key" none readText)
          ((plans.lookup "plan").getD (refuse (.missing "plan"))))))
    (forbidExtra setKeys entries)
  return ⟨id, mode, key, plan⟩

section Reading

variable (instants : InstantReader) (times : List String)

def readPlanParts (raw : Entries) (sets : List (String ×
      Reading PlanRule (List (DerivedSet BusinessQueryPlan)))) :
    Reading PlanRule BusinessQueryPlan := do
  let entries ← normalizePeriodAndDateFilters raw
  let ((node, declared), _) ← both (both (readPlanNode instants entries)
      ((sets.lookup "derived_sets").getD (.ok [])))
    (forbidExtra planKeys entries)
  checkPlan times ⟨node, declared⟩
  return ⟨node, declared⟩

mutual

def readPlan : Json → Reading PlanRule BusinessQueryPlan
  | .dict entries => readPlanParts instants times entries (readSetEntries entries)
  | _ => refuse .wrongType

def readSetEntries : List (String × Json) →
    List (String × Reading PlanRule (List (DerivedSet BusinessQueryPlan)))
  | [] => []
  | (key, value) :: rest => (key, readSets value) :: readSetEntries rest

def readSets : Json → Reading PlanRule (List (DerivedSet BusinessQueryPlan))
  | .null => .ok []
  | .list items => readSetList items
  | _ => refuse .wrongType

def readSetList : List Json → Reading PlanRule (List (DerivedSet BusinessQueryPlan))
  | [] => .ok []
  | item :: items =>
    (both (readSet item) (readSetList items)).map fun parts =>
      parts.1 :: parts.2

def readSet : Json → Reading PlanRule (DerivedSet BusinessQueryPlan)
  | .dict entries => readSetParts entries (readPlanEntries entries)
  | _ => refuse .wrongType

/-- The values of a set's dictionary, read as plans. -/
def readPlanEntries : List (String × Json) → List (String × Reading PlanRule BusinessQueryPlan)
  | [] => []
  | (key, value) :: rest => (key, readPlan value) :: readPlanEntries rest

end

end Reading

def dumpLimit (limit : Nat) : Json := .integer limit

/-- The fields every payload holds. -/
def planEntries (plan : PlanNode) : Entries :=
  [("measures", .list (plan.measures.map .text)),
    ("dimensions", .list (plan.dimensions.map .text)),
    ("bucket_set", dumpNullable .text plan.bucketSet),
    ("anchor", dumpNullable .text plan.anchor),
    ("filters", dumpNullable dumpFilterGroup plan.filters),
    ("having", dumpNullable dumpFilterGroup plan.having),
    ("period", dumpNullable dumpPeriod plan.period),
    ("grain", .text (grainName plan.grain)),
    ("order", .list (plan.order.map dumpOrderClause)),
    ("attribute_predicates", .list (plan.attributePredicates.map fun typed =>
      .dict (dumpAttributePredicate typed))),
    ("detail_selections", .list (plan.detailSelections.map dumpDetailSelection)),
    ("limit", dumpLimit plan.limit)]

/-- A comparison is left out of the canonical payload when there is none. -/
def comparisonEntries (plan : PlanNode) : Entries :=
  match plan.compareTo with
  | none => []
  | some compareTo => [("compare_to", dumpCompareTo compareTo)]

def setEntries (sets : List Json) : Entries :=
  if sets.isEmpty then [] else [("derived_sets", .list sets)]

def dumpSetEntries (id key : String) (mode : SetMode) (plan : Json) : Entries :=
  [("id", .text id), ("mode", .text (setModeName mode)), ("key", .text key), ("plan", plan)]

mutual

/-- The dictionary a plan is fingerprinted and stored as. -/
def canonicalPlanPayload : BusinessQueryPlan → Entries
  | ⟨node, sets⟩ =>
    planEntries node ++ comparisonEntries node ++ setEntries (canonicalSets sets)

def canonicalSets : List (DerivedSet BusinessQueryPlan) → List Json
  | [] => []
  | ⟨id, mode, key, plan⟩ :: sets =>
    .dict (dumpSetEntries id key mode (.dict (canonicalPlanPayload plan))) :: canonicalSets sets

end

end McpAssistant.BusinessQuery.PlanValidation
