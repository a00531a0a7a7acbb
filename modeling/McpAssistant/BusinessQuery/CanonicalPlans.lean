import McpAssistant.BusinessQuery.PlanRoundTrip
import McpAssistant.BusinessQuery.ContinuedOperation

/-!
# Canonical plans

A plan that validation returns is printed as its canonical payload, and the
payload validates to the same plan.  Its fingerprint is a digest of the
payload's text, so it is the same too.
-/

namespace McpAssistant.BusinessQuery.CanonicalPlans

open QueryPlan FilterJson PlanJson PlanNormalization PlanValidation
  PlanRoundTrip PartsRoundTrip ContinuedOperation Foundations.JsonReading
  Foundations.Fallible List

mutual

def dumps : Json → String
  | .null => "null"
  | .boolean value => if value then "true" else "false"
  | .integer value => toString value
  | .float _ printed => printed
  | .text value => jsonString value
  | .list items => "[" ++ ",".intercalate (dumpsItems items) ++ "]"
  | .dict entries =>
    "\x7b" ++ ",".intercalate
      (((dumpsEntries entries).insertionSort fun left right =>
        left.1 ≤ right.1).map fun entry =>
          jsonString entry.1 ++ ":" ++ entry.2) ++ "\x7d"

def dumpsItems : List Json → List String
  | [] => []
  | item :: items => dumps item :: dumpsItems items

def dumpsEntries : List (String × Json) → List (String × String)
  | [] => []
  | (key, value) :: rest => (key, dumps value) :: dumpsEntries rest

end

/-- A digest of the plan's canonical text. -/
def planFingerprint (sha256 : String → String) (plan : BusinessQueryPlan) : String :=
  sha256 (dumps (.dict (canonicalPlanPayload plan)))

section Read

variable {instants : InstantReader} {times : List String}

theorem lookup_readSetEntries (entries : Entries) (key : String) :
    (readSetEntries instants times entries).lookup key =
      (entries.lookup key).map (readSets instants times) := by
  have ahead : readSetEntries instants times entries =
      entries.map fun entry => (entry.1, readSets instants times entry.2) := by
    induction entries with
    | nil => rfl
    | cons entry entries ih =>
      rcases entry with ⟨name, value⟩
      rw [readSetEntries, ih, map_cons]
  rw [ahead, lookup_map_values]

theorem lookup_readPlanEntries (entries : Entries) (key : String) :
    (readPlanEntries instants times entries).lookup key =
      (entries.lookup key).map (readPlan instants times) := by
  have ahead : readPlanEntries instants times entries =
      entries.map fun entry => (entry.1, readPlan instants times entry.2) := by
    induction entries with
    | nil => rfl
    | cons entry entries ih =>
      rcases entry with ⟨name, value⟩
      rw [readPlanEntries, ih, map_cons]
  rw [ahead, lookup_map_values]

/-- The derived sets a plan's dictionary declares. -/
def setsAt (instants : InstantReader) (times : List String) (raw : Entries) :
    Reading PlanRule (List (DerivedSet BusinessQueryPlan)) :=
  ((raw.lookup "derived_sets").map (readSets instants times)).getD (.ok [])

structure PlanRead (instants : InstantReader) (times : List String)
    (raw : Entries) (plan : BusinessQueryPlan) : Prop where
  normal : ∃ entries, normalizePeriodAndDateFilters raw = .ok entries ∧
    NodeRead instants entries plan.toPlanNode ∧ ∀ entry ∈ entries, entry.1 ∈ planKeys
  sets : setsAt instants times raw = .ok plan.derivedSets
  checked : checkPlan times plan = .ok ()

theorem readPlan_eq_ok {raw : Entries} {plan : BusinessQueryPlan} :
    readPlan instants times (.dict raw) = .ok plan ↔ PlanRead instants times raw plan := by
  rcases plan with ⟨node, declared⟩
  rw [readPlan, readPlanParts, lookup_readSetEntries]
  constructor
  · intro read
    rcases bind_eq_ok.mp read with ⟨entries, normal, rest⟩
    rcases bind_eq_ok.mp rest with ⟨⟨⟨found, sets⟩, done⟩, parts, rest⟩
    rcases bind_eq_ok.mp rest with ⟨checked, isChecked, same⟩
    cases same
    simp only [both_eq_ok] at parts
    exact ⟨⟨entries, normal, readPlanNode_eq_ok.mp parts.1.1,
      forbidExtra_eq_ok.mp parts.2⟩, parts.1.2, isChecked⟩
  · rintro ⟨⟨entries, normal, fields, closed⟩, sets, checked⟩
    apply bind_eq_ok.mpr
    refine ⟨entries, normal, bind_eq_ok.mpr ⟨((node, declared), ()), ?_,
      bind_eq_ok.mpr ⟨(), checked, rfl⟩⟩⟩
    simp only [both_eq_ok]
    exact ⟨⟨readPlanNode_eq_ok.mpr fields, sets⟩, forbidExtra_eq_ok.mpr closed⟩

structure SetRead (instants : InstantReader) (times : List String)
    (entries : Entries) (item : DerivedSet BusinessQueryPlan) : Prop where
  limited : statesLimit entries = .ok ()
  id : readField entries "id" none readSetId = .ok item.id
  mode : readField entries "mode" none (@readLiteral PlanRule _ setModes) =
    .ok item.mode
  key : readField entries "key" none (@readText PlanRule) = .ok item.key
  plan : ((entries.lookup "plan").map (readPlan instants times)).getD
    (refuse (.missing "plan")) = .ok item.plan
  closed : ∀ entry ∈ entries, entry.1 ∈ setKeys

theorem readSet_eq_ok {entries : Entries} {item : DerivedSet BusinessQueryPlan} :
    readSet instants times (.dict entries) = .ok item ↔ SetRead instants times entries item := by
  rw [readSet, readSetParts, lookup_readPlanEntries]
  constructor
  · intro read
    rcases bind_eq_ok.mp read with ⟨done, limited, rest⟩
    rcases bind_eq_ok.mp rest with ⟨⟨⟨id, mode, key, plan⟩, closed⟩, parts, same⟩
    cases same
    simp only [both_eq_ok] at parts
    exact ⟨limited, parts.1.1, parts.1.2.1, parts.1.2.2.1, parts.1.2.2.2,
      forbidExtra_eq_ok.mp parts.2⟩
  · intro read
    apply bind_eq_ok.mpr
    refine ⟨(), read.limited, bind_eq_ok.mpr
      ⟨((item.id, item.mode, item.key, item.plan), ()), ?_, rfl⟩⟩
    simp only [both_eq_ok]
    exact ⟨⟨read.id, read.mode, read.key, read.plan⟩, forbidExtra_eq_ok.mpr read.closed⟩

end Read

def canonicalSet (item : DerivedSet BusinessQueryPlan) : Json :=
  .dict (dumpSetEntries item.id item.key item.mode (.dict (canonicalPlanPayload item.plan)))

theorem canonicalSets_cons (item : DerivedSet BusinessQueryPlan)
    (sets : List (DerivedSet BusinessQueryPlan)) :
    canonicalSets (item :: sets) = canonicalSet item :: canonicalSets sets := by
  rcases item with ⟨id, mode, key, plan⟩
  rw [canonicalSets]
  rfl

theorem canonicalPlanPayload_eq (plan : BusinessQueryPlan) :
    canonicalPlanPayload plan = planEntries plan.toPlanNode ++
      comparisonEntries plan.toPlanNode ++ setEntries (canonicalSets plan.derivedSets) := by
  rcases plan with ⟨node, sets⟩
  rw [canonicalPlanPayload]

theorem lookup_compareTo_canonical (node : PlanNode) (sets : List Json) :
    (comparisonEntries node ++ setEntries sets).lookup "compare_to" = none ∧
        node.compareTo = none ∨
      (comparisonEntries node ++ setEntries sets).lookup "compare_to" =
        some (dumpNullable dumpCompareTo node.compareTo) := by
  unfold comparisonEntries
  cases node.compareTo with
  | none =>
    apply Or.inl
    cases sets with
    | nil => exact ⟨rfl, rfl⟩
    | cons item items => exact ⟨rfl, rfl⟩
  | some compareTo => exact .inr rfl

theorem lookup_derivedSets_canonical (node : PlanNode) (sets : List Json) :
    (comparisonEntries node ++ setEntries sets).lookup "derived_sets" = none ∧
        sets = [] ∨
      (comparisonEntries node ++ setEntries sets).lookup "derived_sets" = some (.list sets) := by
  unfold comparisonEntries
  cases sets with
  | nil =>
    apply Or.inl
    cases node.compareTo with
    | none => exact ⟨rfl, rfl⟩
    | some compareTo => exact ⟨rfl, rfl⟩
  | cons item items =>
    apply Or.inr
    cases node.compareTo with
    | none => rfl
    | some compareTo => rfl

theorem keys_canonical (node : PlanNode) (sets : List Json) :
    ∀ entry ∈ planEntries node ++ comparisonEntries node ++ setEntries sets,
      entry.1 ∈ planKeys := by
  intro entry listed
  have shared : ∀ key ∈ (planEntries node).map Prod.fst, key ∈ planKeys := by
    show ∀ key ∈ ["measures", "dimensions", "bucket_set", "anchor", "filters",
      "having", "period", "grain", "order", "attribute_predicates",
      "detail_selections", "limit"], key ∈ planKeys
    decide
  rcases List.mem_append.mp listed with front | declared
  · rcases List.mem_append.mp front with field | comparison
    · exact shared entry.1 (mem_map_of_mem field)
    · unfold comparisonEntries at comparison
      split at comparison
      · cases comparison
      · rw [List.mem_singleton.mp comparison]
        show "compare_to" ∈ planKeys
        decide
  · unfold setEntries at declared
    split at declared
    · cases declared
    · rw [List.mem_singleton.mp declared]
      show "derived_sets" ∈ planKeys
      decide

theorem storesPlan_canonical (plan : BusinessQueryPlan) :
    StoresPlan (canonicalPlanPayload plan) plan.toPlanNode (canonicalSets plan.derivedSets) := by
  rw [canonicalPlanPayload_eq]
  exact {
    measures := rfl
    dimensions := rfl
    bucketSet := rfl
    anchor := rfl
    filters := rfl
    having := rfl
    period := rfl
    compareTo := lookup_compareTo_canonical _ _
    grain := rfl
    order := rfl
    predicates := rfl
    selections := rfl
    limit := rfl
    derivedSets := lookup_derivedSets_canonical _ _
    closed := keys_canonical _ _ }

/-- A plan whose payload validates to it. -/
structure ReadsBack (instants : InstantReader) (times : List String)
    (plan : BusinessQueryPlan) : Prop where
  again : readPlan instants times (.dict (canonicalPlanPayload plan)) = .ok plan
  limit : 1 ≤ plan.limit ∧ plan.limit ≤ 50

def SetReadsBack (instants : InstantReader) (times : List String)
    (item : DerivedSet BusinessQueryPlan) : Prop :=
  readSet instants times (canonicalSet item) = .ok item

section ReadsBack

variable {instants : InstantReader} {times : List String}

theorem readSetList_canonical {sets : List (DerivedSet BusinessQueryPlan)}
    (each : ∀ item ∈ sets, SetReadsBack instants times item) :
    readSetList instants times (canonicalSets sets) = .ok sets := by
  induction sets with
  | nil => rfl
  | cons item sets ih =>
    have own : readSet instants times (canonicalSet item) = .ok item := each item (mem_cons_self ..)
    have later := ih fun later listed => each later (mem_cons_of_mem _ listed)
    rw [canonicalSets_cons, readSetList, own, later]
    rfl

theorem readsBack_of_read {raw : Entries} {plan : BusinessQueryPlan}
    (read : PlanRead instants times raw plan)
    (each : ∀ item ∈ plan.derivedSets, SetReadsBack instants times item) :
    ReadsBack instants times plan := by
  rcases read.normal with ⟨entries, normal, fields, _⟩
  have keeps := keepsGroup_of_normalize normal
  have back := nodeReadsBack_of_read keeps.1 keeps.2 fields
  have stores := storesPlan_canonical plan
  constructor
  · apply readPlan_eq_ok.mpr
    constructor
    · exact ⟨canonicalPlanPayload plan, normalizePeriodAndDateFilters_dump back stores,
        nodeRead_of_stores back stores, stores.closed⟩
    · unfold setsAt
      rcases stores.derivedSets with ⟨missing, none⟩ | found
      · have empty : plan.derivedSets = [] := by
          cases declared : plan.derivedSets with
          | nil => rfl
          | cons item sets =>
            rw [declared, canonicalSets_cons] at none
            cases none
        rw [missing, empty]
        rfl
      · rw [found]
        show readSetList instants times (canonicalSets plan.derivedSets) = _
        exact readSetList_canonical each
    · exact read.checked
  · exact back.limit

theorem isSetId_of_readSetId {json : Json} {id : String}
    (read : readSetId json = .ok id) : readSetId (.text id) = .ok id := by
  rcases bind_eq_ok.mp read with ⟨found, isText, rest⟩
  rcases bind_eq_ok.mp rest with ⟨done, valid, same⟩
  cases same
  exact bind_eq_ok.mpr ⟨id, rfl, bind_eq_ok.mpr ⟨done, valid, rfl⟩⟩

variable {item : DerivedSet BusinessQueryPlan}

theorem statesLimit_of_limit {plan : Entries} {limit : Int} {mode : SetMode} (id key : String)
    (limited : setModeName mode = "pick" ∨ setModeName mode = "ranked")
    (stated : plan.lookup "limit" = some (.integer limit)) :
    statesLimit (dumpSetEntries id key mode (.dict plan)) =
      demand (minPlanLimit ≤ limit ∧ limit ≤ maxPlanLimit) .setLimit := by
  have isMode : (dumpSetEntries id key mode (.dict plan)).lookup "mode" =
    some (.text (setModeName mode)) := rfl
  have isPlan : (dumpSetEntries id key mode (.dict plan)).lookup "plan" = some (.dict plan) := rfl
  simp only [statesLimit, isMode, if_pos limited, isPlan, stated]

theorem statesLimit_canonical (range : 1 ≤ item.plan.limit ∧ item.plan.limit ≤ 50) :
    statesLimit (dumpSetEntries item.id item.key item.mode
      (.dict (canonicalPlanPayload item.plan))) = .ok () := by
  have inRange : minPlanLimit ≤ (item.plan.limit : Int) ∧
      (item.plan.limit : Int) ≤ maxPlanLimit := by
    rw [minPlanLimit, maxPlanLimit]
    omega
  have stated : ∀ mode, setModeName mode = "pick" ∨ setModeName mode = "ranked" →
      statesLimit (dumpSetEntries item.id item.key mode
        (.dict (canonicalPlanPayload item.plan))) = .ok () := by
    intro mode limited
    rw [statesLimit_of_limit _ _ limited (storesPlan_canonical item.plan).limit,
      decide_eq_true inRange]
    rfl
  cases item.mode with
  | complete => rfl
  | ranked => exact stated .ranked (.inr rfl)
  | pick => exact stated .pick (.inl rfl)

theorem setReadsBack_of_read {entries : Entries} (read : SetRead instants times entries item)
    (back : ReadsBack instants times item.plan) :
    SetReadsBack instants times item := by
  apply readSet_eq_ok.mpr
  constructor
  · exact statesLimit_canonical back.limit
  · have field : ∃ json, readSetId json = .ok item.id := by
      cases found : entries.lookup "id" with
      | none =>
        have missing := read.id
        unfold readField at missing
        rw [found] at missing
        cases missing
      | some json => exact ⟨json, (readField_of_lookup found).symm.trans read.id⟩
    rcases field with ⟨json, own⟩
    exact isSetId_of_readSetId own
  · exact readSetMode_dump item.mode
  · rfl
  · exact back.again
  · show ∀ entry ∈ dumpSetEntries item.id item.key item.mode
      (.dict (canonicalPlanPayload item.plan)), entry.1 ∈ setKeys
    intro entry listed
    have known : ∀ key ∈ ["id", "mode", "key", "plan"], key ∈ setKeys := by
      decide
    exact known entry.1 (mem_map_of_mem listed)

mutual

theorem readsBack_of_readPlan : ∀ (json : Json) {plan : BusinessQueryPlan},
    readPlan instants times json = .ok plan → ReadsBack instants times plan
  | .dict raw, _, read => by
      have isRead := readPlan_eq_ok.mp read
      have sets := setsReadBack_of_readEntries raw isRead.sets
      exact readsBack_of_read isRead sets
  | .null, _, read => nomatch read
  | .boolean _, _, read => nomatch read
  | .integer _, _, read => nomatch read
  | .float _ _, _, read => nomatch read
  | .text _, _, read => nomatch read
  | .list _, _, read => nomatch read

theorem setsReadBack_of_readEntries : ∀ (raw : List (String × Json))
    {sets : List (DerivedSet BusinessQueryPlan)},
    setsAt instants times raw = .ok sets → ∀ item ∈ sets, SetReadsBack instants times item
  | [], sets, read => by
      cases read
      intro item listed
      cases listed
  | (key, value) :: rest, sets, read => by
      have own := @setsReadBack_of_readSets value sets
      have later := @setsReadBack_of_readEntries rest sets
      unfold setsAt at read later
      rw [lookup_cons] at read
      cases same : "derived_sets" == key with
      | true =>
        rw [same] at read
        exact own read
      | false =>
        rw [same] at read
        exact later read

theorem setsReadBack_of_readSets : ∀ (json : Json) {sets : List (DerivedSet BusinessQueryPlan)},
    readSets instants times json = .ok sets → ∀ item ∈ sets, SetReadsBack instants times item
  | .list items, sets, read => setsReadBack_of_readSetList items read
  | .null, sets, read => by
      cases read
      intro item listed
      cases listed
  | .boolean _, _, read => nomatch read
  | .integer _, _, read => nomatch read
  | .float _ _, _, read => nomatch read
  | .text _, _, read => nomatch read
  | .dict _, _, read => nomatch read

theorem setsReadBack_of_readSetList : ∀ (items : List Json)
    {sets : List (DerivedSet BusinessQueryPlan)},
    readSetList instants times items = .ok sets → ∀ item ∈ sets, SetReadsBack instants times item
  | [], sets, read => by
      cases read
      intro item listed
      cases listed
  | first :: items, sets, read => by
      have own := @setReadsBack_of_readSet first
      have later := @setsReadBack_of_readSetList items
      rcases map_eq_ok.mp read with ⟨⟨item, rest⟩, parts, same⟩
      cases same
      have both := both_eq_ok.mp parts
      intro other listed
      rcases List.mem_cons.mp listed with rfl | tail
      · exact own both.1
      · exact later both.2 other tail

theorem setReadsBack_of_readSet : ∀ (json : Json) {item : DerivedSet BusinessQueryPlan},
    readSet instants times json = .ok item → SetReadsBack instants times item
  | .dict entries, item, read => by
      have isRead := readSet_eq_ok.mp read
      have plan := readsBack_of_planEntries entries isRead.plan
      exact setReadsBack_of_read isRead plan
  | .null, _, read => nomatch read
  | .boolean _, _, read => nomatch read
  | .integer _, _, read => nomatch read
  | .float _ _, _, read => nomatch read
  | .text _, _, read => nomatch read
  | .list _, _, read => nomatch read

theorem readsBack_of_planEntries : ∀ (entries : List (String × Json)) {plan : BusinessQueryPlan},
    ((entries.lookup "plan").map (readPlan instants times)).getD
        (refuse (.missing "plan")) = .ok plan →
      ReadsBack instants times plan
  | [], plan, read => nomatch read
  | (key, value) :: rest, plan, read => by
      have own := @readsBack_of_readPlan value plan
      have later := @readsBack_of_planEntries rest plan
      rw [lookup_cons] at read
      cases same : "plan" == key with
      | true =>
        rw [same] at read
        exact own read
      | false =>
        rw [same] at read
        exact later read

end

end ReadsBack

/-- Validating what a plan is printed as gives the plan back, with the same
fingerprint. -/
theorem readPlan_canonicalPlanPayload (instants : InstantReader)
    (times : List String) (sha256 : String → String) (json : Json)
    (plan : BusinessQueryPlan) (read : readPlan instants times json = .ok plan) :
    ∃ again, readPlan instants times (.dict (canonicalPlanPayload plan)) = .ok again ∧
      again = plan ∧ planFingerprint sha256 again = planFingerprint sha256 plan :=
  ⟨plan, (readsBack_of_readPlan json read).again, rfl, rfl⟩

/-- A ranked set with an aliased order clause. -/
def bestParts : Json :=
  .dict [("measures", .list [.text "invoice_item.revenue"]),
    ("dimensions", .list [.text "part.name"]), ("grain", .text "grouped"),
    ("order", .list [
      .dict [("field", .text "invoice_item.revenue"), ("direction", .text "desc")],
      .dict [("member", .text "part.name"), ("direction", .text "asc")]]),
    ("limit", .integer 5)]

/-- A bare list of filters with aliases, a sign, a date filter and a limit out
of range. -/
def recentSales : Json :=
  .dict [("measures", .list [.text "invoice_item.revenue"]),
    ("dimensions", .null), ("grain", .text "scalar"),
    ("filters", .list [
      .dict [("field", .text "part.name"), ("operator", .text "in_set"),
        ("values", .list [.text "best"])],
      .dict [("member", .text "invoice_item.quantity"), ("operator", .text ">"),
        ("value", .integer 3)],
      .dict [("member", .text "invoice_item.sold_at"),
        ("operator", .text "since"), ("values", .list [.text "2024-01-01"])]]),
    ("limit", .integer 500),
    ("derived_sets", .list [
      .dict [("id", .text "best"), ("mode", .text "ranked"),
        ("key", .text "part.name"), ("plan", bestParts)]])]

def recentSalesPlan : BusinessQueryPlan :=
  { measures := ["invoice_item.revenue"]
    grain := .scalar
    filters := some { all := [
      .leaf (.filter ⟨"part.name", .inSet, [.text "best"], rfl⟩),
      .leaf (.filter ⟨"invoice_item.quantity", .gt, [.integer 3], rfl⟩)] }
    period := some ⟨"invoice_item.sold_at", .since 738886, none⟩
    limit := 50
    derivedSets := [⟨"best", .ranked, "part.name",
      { measures := ["invoice_item.revenue"]
        dimensions := ["part.name"]
        grain := .grouped
        order := [⟨"invoice_item.revenue", .desc⟩, ⟨"part.name", .asc⟩]
        limit := 5 }⟩] }

theorem readPlan_recentSales : readPlan strictPython [] recentSales = .ok recentSalesPlan := rfl

theorem recentSales_reads_back : ∃ again,
    readPlan strictPython [] (.dict (canonicalPlanPayload recentSalesPlan)) = .ok again ∧
      again = recentSalesPlan ∧ planFingerprint (fun text => text) again =
        planFingerprint (fun text => text) recentSalesPlan :=
  readPlan_canonicalPlanPayload strictPython [] (fun text => text) recentSales
    recentSalesPlan readPlan_recentSales

end McpAssistant.BusinessQuery.CanonicalPlans
