import McpAssistant.BusinessQuery.NormalizedDepth

/-!
# What validating a plan raises

Validation collects the `ValueError`s of validators as faults; every other exception of
theirs ends it.  Besides the readers' own escape, a `TypeError`, a plan whose filters nest
too deep for the stack raises a `RecursionError`.
-/

namespace McpAssistant.BusinessQuery.ValidationErrors

open FilterTree QueryPlan FilterJson PlanJson PlanValidation BeforeValidators
  NormalizedDepth Foundations.JsonReading Foundations.Fallible
  Foundations.PythonExceptions List

/-- How a validation ends that returns no value. -/
inductive Raised where
  | validationError (faults : List (Fault PlanRule))
  | exception (raised : PyException)

abbrev Validated (Value : Type) := Except Raised Value

def Raised.isMalformedPlan : Raised → Bool
  | .validationError _ => true
  | .exception .typeError => true
  | .exception .valueError => true
  | .exception _ => false

section Runs

variable {First Second Value : Type}

def ofRefusal : Refusal PlanRule → Raised
  | .escaped => .exception .typeError
  | .invalid faults => .validationError faults

def ofReading (reading : Reading PlanRule Value) : Validated Value :=
  reading.mapError ofRefusal

def runBefore (rule : PlanRule) (run : Raising Value) : Validated Value :=
  run.mapError fun raised =>
    match raised with
    | .valueError => .validationError [.broken rule]
    | raised => .exception raised

/-- Two parts validated side by side; the first exception ends both. -/
def beside (first : Validated First) (second : Validated Second) : Validated (First × Second) :=
  match first, second with
  | .ok left, .ok right => .ok (left, right)
  | .ok _, .error raised => .error raised
  | .error raised, .ok _ => .error raised
  | .error (.exception raised), .error _ => .error (.exception raised)
  | .error (.validationError _), .error (.exception raised) => .error (.exception raised)
  | .error (.validationError left), .error (.validationError right) =>
    .error (.validationError (left ++ right))

/-- The one of three forms a value has. -/
def firstOf (first second third : Validated Value) : Validated Value :=
  match first, second, third with
  | .ok value, _, _ => .ok value
  | .error (.exception raised), _, _ => .error (.exception raised)
  | .error (.validationError _), .ok value, _ => .ok value
  | .error (.validationError _), .error (.exception raised), _ => .error (.exception raised)
  | .error (.validationError _), .error (.validationError _), validated => validated

def validateNullable (validate : Json → Validated Value) : Json → Validated (Option Value)
  | .null => .ok none
  | json => (validate json).map some

/-- A field that is null when it is absent. -/
def validateField (entries : Entries) (key : String)
    (validate : Json → Validated (Option Value)) : Validated (Option Value) :=
  match entries.lookup key with
  | some json => validate json
  | none => .ok none

end Runs

section Filters

variable (frames : Nat)

def validateGroupParts (entries : Entries)
    (branches : List (String × Validated (List FilterNode))) : Validated FilterGroup := do
  let _ ← runBefore .groupRequiresBranch (dropNeutralBranchesAndNodes frames entries)
  (beside
    (beside ((branches.lookup "all").getD (.ok [])) ((branches.lookup "any").getD (.ok [])))
    (ofReading (forbidExtra branchKeys entries))).map fun parts => ⟨parts.1.1, parts.1.2⟩

mutual

def validateFilterNode : Json → Validated FilterNode
  | .dict entries =>
    firstOf (ofReading ((readPlanFilter entries).map fun leaf => .leaf (.filter leaf)))
      (ofReading ((readAttributePredicate entries).map fun typed =>
        .leaf (.predicate typed)))
      ((validateGroupParts frames entries (validateFilterBranches entries)).map
        fun group => .group group.all group.any)
  | _ => ofReading (refuse .wrongType)

def validateFilterBranches : List (String × Json) → List (String × Validated (List FilterNode))
  | [] => []
  | (key, value) :: rest =>
    (key, validateFilterBranch value) :: validateFilterBranches rest

def validateFilterBranch : Json → Validated (List FilterNode)
  | .list items => validateFilterNodes items
  | _ => ofReading (refuse .wrongType)

def validateFilterNodes : List Json → Validated (List FilterNode)
  | [] => .ok []
  | item :: items =>
    if FilterJson.isNeutralGroupNode item then validateFilterNodes items
    else
      (beside (validateFilterNode item) (validateFilterNodes items)).map fun parts =>
        parts.1 :: parts.2

end

def validateFilterGroup : Json → Validated FilterGroup
  | .dict entries => validateGroupParts frames entries (validateFilterBranches frames entries)
  | _ => ofReading (refuse .wrongType)

end Filters

section Plans

variable (frames : Nat) (instants : InstantReader) (times : List String)

def validatePlanNode (entries : Entries) : Validated PlanNode :=
  (beside (ofReading (readField entries "measures" (some []) (readNullAsEmpty readText)))
    (beside (ofReading (readField entries "dimensions" (some [])
        (readNullAsEmpty readText)))
      (beside (ofReading (readField entries "bucket_set" (some none)
          (readNullable readText)))
        (beside (ofReading (readField entries "anchor" (some none) (readNullable readText)))
          (beside (validateField entries "filters"
              (validateNullable (validateFilterGroup frames)))
            (beside (validateField entries "having"
                (validateNullable (validateFilterGroup frames)))
              (beside (ofReading (readField entries "period" (some none)
                  (readNullable readPeriod)))
                (beside (ofReading (readField entries "compare_to" (some none)
                    (readNullable readCompareTo)))
                  (beside (ofReading (readField entries "grain" none (readLiteral grains)))
                    (beside (ofReading (readField entries "order" (some [])
                        (readNullAsEmpty readOrderClause)))
                      (beside (ofReading (readField entries "attribute_predicates" (some [])
                          (readList readTypedPredicate)))
                        (beside (ofReading (readField entries "detail_selections" (some [])
                            (readNullAsEmpty (readDetailSelection instants))))
                          (ofReading (readField entries "limit" (some 20)
                            readLimit)))))))))))))).map
    fun (measures, dimensions, bucketSet, anchor, filters, having, period,
        compareTo, grain, order, predicates, selections, limit) =>
      { measures, dimensions, bucketSet, anchor, filters, having, period,
        compareTo, grain, order, attributePredicates := predicates,
        detailSelections := selections, limit }

def validateSetParts (entries : Entries) (plans : List (String × Validated BusinessQueryPlan)) :
    Validated (DerivedSet BusinessQueryPlan) := do
  runBefore .setLimit (validateRawPayload entries)
  let ((id, mode, key, plan), _) ← beside
    (beside (ofReading (readField entries "id" none readSetId))
      (beside (ofReading (readField entries "mode" none (readLiteral setModes)))
        (beside (ofReading (readField entries "key" none readText))
          ((plans.lookup "plan").getD (ofReading (refuse (.missing "plan")))))))
    (ofReading (forbidExtra setKeys entries))
  return ⟨id, mode, key, plan⟩

def validatePlanParts (raw : Entries)
    (sets : List (String × Validated (List (DerivedSet BusinessQueryPlan)))) :
    Validated BusinessQueryPlan := do
  let entries ← (normalizePeriodAndDateFilters frames raw).mapError .exception
  let ((node, declared), _) ← beside (beside (validatePlanNode frames instants entries)
      ((sets.lookup "derived_sets").getD (.ok [])))
    (ofReading (forbidExtra planKeys entries))
  ofReading (checkPlan times ⟨node, declared⟩)
  return ⟨node, declared⟩

mutual

def validatePlan : Json → Validated BusinessQueryPlan
  | .dict entries =>
    validatePlanParts frames instants times entries (validateSetEntries entries)
  | _ => ofReading (refuse .wrongType)

def validateSetEntries : List (String × Json) →
    List (String × Validated (List (DerivedSet BusinessQueryPlan)))
  | [] => []
  | (key, value) :: rest => (key, validateSets value) :: validateSetEntries rest

def validateSets : Json → Validated (List (DerivedSet BusinessQueryPlan))
  | .null => .ok []
  | .list items => validateSetList items
  | _ => ofReading (refuse .wrongType)

def validateSetList : List Json → Validated (List (DerivedSet BusinessQueryPlan))
  | [] => .ok []
  | item :: items =>
    (beside (validateSet item) (validateSetList items)).map fun parts =>
      parts.1 :: parts.2

def validateSet : Json → Validated (DerivedSet BusinessQueryPlan)
  | .dict entries => validateSetParts entries (validatePlanEntries entries)
  | _ => ofReading (refuse .wrongType)

/-- The values of a set's dictionary, validated as plans. -/
def validatePlanEntries : List (String × Json) → List (String × Validated BusinessQueryPlan)
  | [] => []
  | (key, value) :: rest => (key, validatePlan value) :: validatePlanEntries rest

end

end Plans

mutual

/-- How deep filters nest in a raw plan or in a plan of its derived sets. -/
def planDepth : Json → Nat
  | .dict entries => planEntriesDepth entries
  | _ => 0

def planEntriesDepth : List (String × Json) → Nat
  | [] => 0
  | (key, value) :: rest =>
    max (if key ∈ filterFields then filtersDepth value
        else if key = "derived_sets" then setsDepth value else 0)
      (planEntriesDepth rest)

def setsDepth : Json → Nat
  | .list items => setListDepth items
  | _ => 0

def setListDepth : List Json → Nat
  | [] => 0
  | item :: items => max (setDepth item) (setListDepth items)

def setDepth : Json → Nat
  | .dict entries => setEntriesDepth entries
  | _ => 0

def setEntriesDepth : List (String × Json) → Nat
  | [] => 0
  | (key, value) :: rest =>
    max (if key = "plan" then planDepth value else 0) (setEntriesDepth rest)

end

/-- A validation ends as the reading does, or runs out of stack where it may. -/
inductive Follows (deep : Prop) {Value : Type} : Validated Value → Reading PlanRule Value → Prop
  | returned (value : Value) : Follows deep (.ok value) (.ok value)
  | refused (faults : List (Fault PlanRule)) :
      Follows deep (.error (.validationError faults)) (.error (.invalid faults))
  | escaped : Follows deep (.error (.exception .typeError)) (.error .escaped)
  | overflow (reading : Reading PlanRule Value) (tooDeep : deep) :
      Follows deep (.error (.exception .recursionError)) reading

section Following

variable {First Second Value Result : Type} {deep : Prop}

theorem follows_reading (reading : Reading PlanRule Value) :
    Follows deep (ofReading reading) reading := by
  rcases reading with ⟨_ | faults⟩ | value
  · exact .escaped
  · exact .refused faults
  · exact .returned value

variable {reading : Reading PlanRule Value}

theorem follows_of_agrees {run : Raising Value} (agrees : Agrees deep run reading) :
    Follows deep (run.mapError .exception) reading := by
  cases agrees with
  | returned value => exact .returned value
  | escaped => exact .escaped
  | overflow reading tooDeep => exact .overflow reading tooDeep

variable {run : Validated Value}

theorem Follows.imp {other : Prop} (follows : Follows deep run reading) (still : deep → other) :
    Follows other run reading := by
  cases follows with
  | returned value => exact .returned value
  | refused faults => exact .refused faults
  | escaped => exact .escaped
  | overflow reading tooDeep => exact .overflow reading (still tooDeep)

theorem Follows.bind_ok
    {next : Value → Validated Result} {nextReading : Value → Reading PlanRule Result}
    (first : Follows deep run reading)
    (rest : ∀ value, reading = .ok value → Follows deep (next value) (nextReading value)) :
    Follows deep (run >>= next) (reading >>= nextReading) := by
  cases first with
  | returned value => exact rest value rfl
  | refused faults => exact .refused faults
  | escaped => exact .escaped
  | overflow reading tooDeep => exact .overflow _ tooDeep

theorem Follows.map (follows : Follows deep run reading) (next : Value → Result) :
    Follows deep (run.map next) (reading.map next) := by
  cases follows with
  | returned value => exact .returned (next value)
  | refused faults => exact .refused faults
  | escaped => exact .escaped
  | overflow reading tooDeep => exact .overflow _ tooDeep

theorem Follows.beside {first : Validated First} {second : Validated Second}
    {reading : Reading PlanRule First} {other : Reading PlanRule Second}
    (one : Follows deep first reading) (two : Follows deep second other) :
    Follows deep (beside first second) (both reading other) := by
  cases one with
  | returned left =>
    cases two with
    | returned right => exact .returned (left, right)
    | refused faults => exact .refused faults
    | escaped => exact .escaped
    | overflow _ tooDeep => exact .overflow _ tooDeep
  | refused faults =>
    cases two with
    | returned right => exact .refused faults
    | refused others => exact .refused (faults ++ others)
    | escaped => exact .escaped
    | overflow _ tooDeep => exact .overflow _ tooDeep
  | escaped =>
    cases two with
    | overflow _ tooDeep =>
      cases other with
      | error refusal => exact .escaped
      | ok value => exact .escaped
    | _ => exact .escaped
  | overflow reading tooDeep =>
    cases two with
    | _ => exact .overflow _ tooDeep

theorem Follows.firstOf {first second third : Validated Value}
    {one two three : Reading PlanRule Value} (left : Follows deep first one)
    (middle : Follows deep second two) (right : Follows deep third three) :
    Follows deep (firstOf first second third) (oneOf one two three) := by
  cases left with
  | returned value => exact .returned value
  | escaped => exact .escaped
  | overflow reading tooDeep => exact .overflow _ tooDeep
  | refused faults =>
    cases middle with
    | returned value => exact .returned value
    | escaped => exact .escaped
    | overflow reading tooDeep => exact .overflow _ tooDeep
    | refused others => exact right

/-- With room on the stack a validation ends as the reading does. -/
theorem Follows.eq_ofReading
    (follows : Follows deep run reading) (room : ¬deep) : run = ofReading reading := by
  cases follows with
  | overflow reading tooDeep => exact absurd tooDeep room
  | _ => rfl

theorem Follows.failsOnly (follows : Follows deep run reading) :
    FailsOnly (fun raised => raised.isMalformedPlan = true ∨
      raised = .exception .recursionError ∧ deep) run := by
  cases follows with
  | returned value => exact failsOnly_ok
  | refused faults => exact failsOnly_error.mpr (.inl rfl)
  | escaped => exact failsOnly_error.mpr (.inl rfl)
  | overflow reading tooDeep => exact failsOnly_error.mpr (.inr ⟨rfl, tooDeep⟩)

theorem agrees_failsOnly {run : Raising Value}
    (agrees : Agrees False run reading) : FailsOnly (· = .typeError) run := by
  cases agrees with
  | returned value => exact failsOnly_ok
  | escaped => exact failsOnly_error.mpr rfl
  | overflow reading tooDeep => exact tooDeep.elim

theorem Follows.nullable {validate : Json → Validated Value}
    {read : Json → Reading PlanRule Value} {json : Json}
    (follows : Follows deep (validate json) (read json)) :
    Follows deep (validateNullable validate json) (readNullable read json) := by
  cases json with
  | null => exact .returned none
  | _ => exact follows.map some

theorem Follows.field {entries : Entries} {key : String}
    {validate : Json → Validated (Option Value)}
    {read : Json → Reading PlanRule (Option Value)}
    (each : ∀ json, entries.lookup key = some json → Follows deep (validate json) (read json)) :
    Follows deep (validateField entries key validate) (readField entries key (some none) read) := by
  rw [validateField, readField]
  cases found : entries.lookup key with
  | none => exact .returned none
  | some json => exact each json found

end Following

theorem keptNodes_agrees (items : List Json) (frames : Nat) :
    Agrees (frames < 2 * itemsDepth items + 1) (keptNodes frames items)
      (.ok (items.filter fun item => !FilterJson.isNeutralGroupNode item)) := by
  induction items with
  | nil => exact agrees_ok []
  | cons item items ih =>
    rw [keptNodes, itemsDepth, filter_cons]
    apply ((isNeutralGroupNode_agrees item frames).imp (by omega)).followed
    apply (ih.imp (by omega)).followed
    cases FilterJson.isNeutralGroupNode item with
    | true => exact agrees_ok _
    | false => exact agrees_ok _

theorem itemsDepth_filter (keep : Json → Bool) (items : List Json) :
    itemsDepth (items.filter keep) ≤ itemsDepth items := by
  induction items with
  | nil => exact Nat.le_refl _
  | cons item items ih =>
    rw [filter_cons, itemsDepth]
    split
    · rw [itemsDepth]
      exact max_le_max (Nat.le_refl _) ih
    · exact Nat.le_trans ih (Nat.le_max_right ..)

theorem dropNeutralBranch_agrees {key : String} (branch : key = "all" ∨ key = "any")
    (data : Entries) (frames : Nat) :
    ∃ cleaned, branchesDepth cleaned ≤ branchesDepth data ∧
      Agrees (frames < 2 * branchesDepth data) (dropNeutralBranch frames key data)
        (.ok cleaned) := by
  rw [dropNeutralBranch]
  cases found : data.lookup key with
  | none => exact ⟨data, Nat.le_refl _, agrees_ok data⟩
  | some value =>
    cases value with
    | list items =>
      have held := branchDepth_le branch found
      rw [branchDepth] at held
      have kept : Agrees (frames < 2 * branchesDepth data)
          (call frames fun left => keptNodes left items)
          (.ok (items.filter fun item => !FilterJson.isNeutralGroupNode item)) := by
        apply agrees_call (by omega)
        rintro left rfl
        exact (keptNodes_agrees items left).imp (by omega)
      have fewer := itemsDepth_filter (fun item => !FilterJson.isNeutralGroupNode item) items
      generalize items.filter (fun item => !FilterJson.isNeutralGroupNode item) = nodes
        at kept fewer
      cases nodes with
      | nil =>
        refine ⟨eraseKey data key, branchesDepth_eraseKey data key, kept.followed ?_⟩
        rw [delete_of_lookup found]
        exact agrees_ok _
      | cons node nodes =>
        refine ⟨putKey key (.list (node :: nodes)) data, ?_, kept.followed (agrees_ok _)⟩
        apply Nat.le_trans (branchesDepth_putKey data key _)
        rw [if_pos branch, branchDepth]
        omega
    | _ => exact ⟨data, Nat.le_refl _, agrees_ok data⟩

theorem dropNeutralBranchesAndNodes_agrees {data : Entries}
    (held : (hasKey data "all" || hasKey data "any") = true) (frames : Nat) :
    ∃ cleaned, Agrees (frames < 2 * branchesDepth data)
      (dropNeutralBranchesAndNodes frames data) (.ok cleaned) := by
  rw [dropNeutralBranchesAndNodes, ← Bool.not_or, held]
  rcases dropNeutralBranch_agrees (.inl rfl) data frames with ⟨first, fewer, one⟩
  rcases dropNeutralBranch_agrees (.inr rfl) first frames with ⟨cleaned, _, other⟩
  exact ⟨cleaned, one.followed (other.imp (by omega))⟩

variable {deep : Prop}

theorem validateGroupParts_follows {frames : Nat} {entries : Entries}
    {branches : List (String × Validated (List FilterNode))}
    {readings : List (String × Reading PlanRule (List FilterNode))}
    (tooDeep : frames < 2 * branchesDepth entries → deep)
    (each : ∀ key, key = "all" ∨ key = "any" →
      Follows deep ((branches.lookup key).getD (.ok [])) ((readings.lookup key).getD (.ok []))) :
    Follows deep (validateGroupParts frames entries branches)
      (readGroupParts entries readings) := by
  rw [validateGroupParts, readGroupParts]
  split
  next held =>
    rcases dropNeutralBranchesAndNodes_agrees held frames with ⟨cleaned, agrees⟩
    have parts := (((each "all" (.inl rfl)).beside (each "any" (.inr rfl))).beside
      (follows_reading (forbidExtra branchKeys entries))).map
        fun parts => FilterGroup.mk parts.1.1 parts.1.2
    generalize dropNeutralBranchesAndNodes frames entries = run at agrees
    cases agrees with
    | returned cleaned => exact parts
    | overflow reading isDeep => exact .overflow _ (tooDeep isDeep)
  next missing =>
    have absent : dropNeutralBranchesAndNodes frames entries = .error .valueError := by
      rw [Bool.not_eq_true] at missing
      rw [dropNeutralBranchesAndNodes, ← Bool.not_or, missing]
      rfl
    rw [absent]
    exact .refused _

mutual

theorem validateFilterNode_follows : ∀ (node : Json) (frames : Nat),
    Follows (frames < 2 * groupDepth node) (validateFilterNode frames node) (readFilterNode node)
  | .dict entries, frames => by
      rw [validateFilterNode, readFilterNode, groupDepth]
      apply (follows_reading _).firstOf (follows_reading _)
      apply Follows.map
      apply validateGroupParts_follows id
      intro key branch
      exact lookup_validateFilterBranches entries frames branch
  | .null, _ | .boolean _, _ | .integer _, _ | .float _ _, _ | .text _, _ | .list _, _ =>
    .refused _

theorem lookup_validateFilterBranches : ∀ (entries : List (String × Json)) (frames : Nat)
    {key : String}, key = "all" ∨ key = "any" →
      Follows (frames < 2 * branchesDepth entries)
        (((validateFilterBranches frames entries).lookup key).getD (.ok []))
        (((readFilterBranches entries).lookup key).getD (.ok []))
  | [], _, _, _ => .returned []
  | (name, value) :: rest, frames, key, branch => by
      rw [validateFilterBranches, readFilterBranches, branchesDepth, lookup_cons, lookup_cons]
      cases same : key == name with
      | false => exact (lookup_validateFilterBranches rest frames branch).imp (by omega)
      | true =>
        cases beq_iff_eq.mp same
        rw [if_pos branch]
        exact (validateFilterBranch_follows value frames).imp (by omega)

theorem validateFilterBranch_follows : ∀ (value : Json) (frames : Nat),
    Follows (frames < 2 * branchDepth value) (validateFilterBranch frames value)
      (readFilterBranch value)
  | .list items, frames => by
      rw [validateFilterBranch, readFilterBranch, branchDepth]
      exact (validateFilterNodes_follows items frames).imp (by omega)
  | .null, _ | .boolean _, _ | .integer _, _ | .float _ _, _ | .text _, _ | .dict _, _ =>
    .refused _

theorem validateFilterNodes_follows : ∀ (items : List Json) (frames : Nat),
    Follows (frames < 2 * itemsDepth items) (validateFilterNodes frames items)
      (readFilterNodes items)
  | [], _ => .returned []
  | item :: items, frames => by
      rw [validateFilterNodes, readFilterNodes, itemsDepth]
      split
      · exact (validateFilterNodes_follows items frames).imp (by omega)
      · exact (((validateFilterNode_follows item frames).imp (by omega)).beside
          ((validateFilterNodes_follows items frames).imp (by omega))).map _

end

theorem validateFilterGroup_follows (group : Json) (frames : Nat) :
    Follows (frames < 2 * groupDepth group) (validateFilterGroup frames group)
      (readFilterGroup group) := by
  cases group with
  | dict entries =>
    rw [validateFilterGroup, readFilterGroup, groupDepth]
    apply validateGroupParts_follows id
    intro key branch
    exact lookup_validateFilterBranches entries frames branch
  | _ => exact .refused _

theorem limitDemand_follows (limit : Int) : Follows deep (runBefore .setLimit
        (if PlanNormalization.minPlanLimit ≤ limit ∧ limit ≤ PlanNormalization.maxPlanLimit
          then .ok () else .error .valueError))
      (demand (PlanNormalization.minPlanLimit ≤ limit ∧
        limit ≤ PlanNormalization.maxPlanLimit) .setLimit) := by
  by_cases inRange : PlanNormalization.minPlanLimit ≤ limit ∧ limit ≤ PlanNormalization.maxPlanLimit
  · rw [if_pos inRange, decide_eq_true inRange]
    exact .returned ()
  · rw [if_neg inRange, decide_eq_false inRange]
    exact .refused _

theorem validateRawPayload_follows (entries : Entries) :
    Follows deep (runBefore .setLimit (validateRawPayload entries)) (statesLimit entries) := by
  rw [validateRawPayload, statesLimit]
  cases mode : entries.lookup "mode" with
  | none => exact .returned ()
  | some json =>
    cases json with
    | text name =>
      have listed : orderedModes.contains name = decide (name = "pick" ∨ name = "ranked") := by
        simp [orderedModes]
      dsimp only [Option.getD_some, isIn]
      rw [listed]
      by_cases ordered : name = "pick" ∨ name = "ranked"
      · rw [if_pos ordered, decide_eq_true ordered]
        cases entries.lookup "plan" with
        | none => exact .refused _
        | some raw =>
          cases raw with
          | dict plan =>
            cases stated : plan.lookup "limit" with
            | none =>
              simp only [stated]
              exact .refused _
            | some value =>
              simp only [stated]
              cases value with
              | integer limit => exact limitDemand_follows limit
              | _ => exact .refused _
          | _ => exact .refused _
      · rw [if_neg ordered, decide_eq_false ordered]
        exact .returned ()
    | list items => exact .escaped
    | dict items => exact .escaped
    | _ => exact .returned ()

section Whole

variable {frames : Nat} {instants : InstantReader} {times : List String}

theorem validatePlanNode_follows {depth : Nat} {entries : Entries}
    (within : NestWithin depth entries) :
    Follows (frames < 3 * depth + 2) (validatePlanNode frames instants entries)
      (readPlanNode instants entries) := by
  have filters : ∀ key ∈ filterFields, Follows (frames < 3 * depth + 2)
      (validateField entries key (validateNullable (validateFilterGroup frames)))
      (readField entries key (some none) (readNullable readFilterGroup)) := by
    intro key isField
    apply Follows.field
    intro group found
    have bounded := within.depth_le isField found
    exact ((validateFilterGroup_follows group frames).imp (by omega)).nullable
  rw [validatePlanNode, readPlanNode]
  apply Follows.map
  apply (follows_reading _).beside
  apply (follows_reading _).beside
  apply (follows_reading _).beside
  apply (follows_reading _).beside
  apply (filters "filters" (by decide)).beside
  apply (filters "having" (by decide)).beside
  apply (follows_reading _).beside
  apply (follows_reading _).beside
  apply (follows_reading _).beside
  apply (follows_reading _).beside
  apply (follows_reading _).beside
  apply (follows_reading _).beside
  exact follows_reading _

theorem nestWithin_planEntries (entries : Entries) :
    NestWithin (planEntriesDepth entries) entries := by
  intro key isField group found
  have listed := mem_of_lookup_eq_some found
  clear found
  induction entries with
  | nil => cases listed
  | cons entry entries ih =>
    rcases entry with ⟨name, value⟩
    rw [planEntriesDepth]
    rcases List.mem_cons.mp listed with same | later
    · cases same
      rw [if_pos isField]
      exact Nat.le_max_left ..
    · exact Nat.le_trans (ih later) (Nat.le_max_right ..)

mutual

theorem validatePlan_follows : ∀ (json : Json),
    Follows (frames < 3 * planDepth json + 2) (validatePlan frames instants times json)
      (readPlan instants times json)
  | .dict entries => by
      rw [validatePlan, readPlan, planDepth, validatePlanParts, readPlanParts]
      have within := nestWithin_planEntries entries
      apply (follows_of_agrees (normalizePeriodAndDateFilters_agrees within)).bind_ok
      intro normal ran
      have node : Follows (frames < 3 * planEntriesDepth entries + 2)
          (validatePlanNode frames instants normal) (readPlanNode instants normal) :=
        validatePlanNode_follows (within.normalized ran)
      have parts := (node.beside (lookup_validateSetEntries entries)).beside
        (follows_reading (forbidExtra planKeys normal))
      apply parts.bind_ok
      rintro ⟨⟨node, declared⟩, done⟩ _
      apply (follows_reading _).bind_ok
      intro checked _
      exact .returned _
  | .null | .boolean _ | .integer _ | .float _ _ | .text _ | .list _ => .refused _

theorem lookup_validateSetEntries : ∀ (entries : List (String × Json)),
    Follows (frames < 3 * planEntriesDepth entries + 2)
      (((validateSetEntries frames instants times entries).lookup "derived_sets").getD (.ok []))
      (((readSetEntries instants times entries).lookup "derived_sets").getD (.ok []))
  | [] => .returned []
  | (name, value) :: rest => by
      rw [validateSetEntries, readSetEntries, planEntriesDepth, lookup_cons, lookup_cons]
      cases same : "derived_sets" == name with
      | false => exact (lookup_validateSetEntries rest).imp (by omega)
      | true =>
        cases beq_iff_eq.mp same
        rw [if_neg (by decide), if_pos rfl]
        exact (validateSets_follows value).imp (by omega)

theorem validateSets_follows : ∀ (json : Json),
    Follows (frames < 3 * setsDepth json + 2) (validateSets frames instants times json)
      (readSets instants times json)
  | .list items => by
      rw [validateSets, readSets, setsDepth]
      exact validateSetList_follows items
  | .null => .returned []
  | .boolean _ | .integer _ | .float _ _ | .text _ | .dict _ => .refused _

theorem validateSetList_follows : ∀ (items : List Json),
    Follows (frames < 3 * setListDepth items + 2) (validateSetList frames instants times items)
      (readSetList instants times items)
  | [] => .returned []
  | item :: items => by
      rw [validateSetList, readSetList, setListDepth]
      exact (((validateSet_follows item).imp (by omega)).beside
        ((validateSetList_follows items).imp (by omega))).map _

theorem validateSet_follows : ∀ (json : Json),
    Follows (frames < 3 * setDepth json + 2) (validateSet frames instants times json)
      (readSet instants times json)
  | .dict entries => by
      rw [validateSet, readSet, setDepth, validateSetParts, readSetParts]
      apply (validateRawPayload_follows entries).bind_ok
      intro limited _
      have parts := ((follows_reading (readField entries "id" none readSetId)).beside
        ((follows_reading (readField entries "mode" none (readLiteral setModes))).beside
          ((follows_reading (readField entries "key" none readText)).beside
            (lookup_validatePlanEntries entries)))).beside
              (follows_reading (forbidExtra setKeys entries))
      apply parts.bind_ok
      rintro ⟨⟨id, mode, key, plan⟩, done⟩ _
      exact .returned _
  | .null | .boolean _ | .integer _ | .float _ _ | .text _ | .list _ => .refused _

theorem lookup_validatePlanEntries : ∀ (entries : List (String × Json)),
    Follows (frames < 3 * setEntriesDepth entries + 2)
      (((validatePlanEntries frames instants times entries).lookup "plan").getD
        (ofReading (refuse (.missing "plan"))))
      (((readPlanEntries instants times entries).lookup "plan").getD (refuse (.missing "plan")))
  | [] => .refused _
  | (name, value) :: rest => by
      rw [validatePlanEntries, readPlanEntries, setEntriesDepth, lookup_cons, lookup_cons]
      cases same : "plan" == name with
      | false => exact (lookup_validatePlanEntries rest).imp (by omega)
      | true =>
        cases beq_iff_eq.mp same
        rw [if_pos rfl]
        exact (validatePlan_follows value).imp (by omega)

end

end Whole

/-- The frames that the filters of a raw plan may take. -/
def framesNeeded (json : Json) : Nat :=
  3 * planDepth json + 2

theorem validatePlan_eq {frames : Nat} {json : Json} (room : framesNeeded json ≤ frames)
    (instants : InstantReader) (times : List String) :
    validatePlan frames instants times json = ofReading (readPlan instants times json) :=
  (validatePlan_follows json).eq_ofReading (Nat.not_lt.mpr room)

/-- What may escape the validators of a raw plan, on a stack of some frames. -/
structure HandledValidation (frames : Nat) (instants : InstantReader) (times : List String)
    (json : Json) : Prop where
  /-- Validation raises what the planner takes for a malformed plan, or a
  `RecursionError` on filters that nest too deep. -/
  whole : FailsOnly (fun raised => raised.isMalformedPlan = true ∨
      raised = .exception .recursionError ∧ frames < framesNeeded json)
    (validatePlan frames instants times json)
  /-- The validators of single values, which the readers run, raise nothing, but for the
  `TypeError` of a predicate's operator. -/
  members : ∀ data, Succeeds (aliasMember data)
  families : ∀ data, Succeeds (normalizeFamily data)
  dates : ∀ value, Succeeds (parseIsoDate value)
  bounds : ∀ value, Succeeds (acceptStartEndObject value)
  filters : ∀ data, Succeeds (planFilterBefore data)
  predicates : ∀ data, FailsOnly (· = .typeError) (attributePredicateBefore data)

theorem handledValidation (frames : Nat) (instants : InstantReader) (times : List String)
    (json : Json) : HandledValidation frames instants times json where
  whole := (validatePlan_follows json).failsOnly
  members := fun data => ⟨_, takeAlias_eq _ _ data⟩
  families := by
    intro data
    cases data with
    | dict entries =>
      rw [normalizeFamily, takeAlias_eq]
      exact ⟨_, rfl⟩
    | _ => exact ⟨_, rfl⟩
  dates := parseIsoDate_succeeds
  bounds := acceptStartEndObject_succeeds
  filters := fun data => ⟨_, planFilterBefore_eq data⟩
  predicates := fun data => agrees_failsOnly (attributePredicateBefore_agrees data)

def nestedGroup : Nat → Json
  | 0 => .dict [("all", .list [])]
  | depth + 1 => .dict [("all", .list [nestedGroup depth])]

theorem normalizeFilterNode_nestedGroup (depth : Nat) :
    ∀ frames ≤ 3 * depth, normalizeFilterNode frames (nestedGroup depth) =
      .error .recursionError := by
  induction depth with
  | zero =>
    intro frames few
    rw [Nat.le_zero.mp few]
    rfl
  | succ depth ih =>
    intro frames few
    rcases frames with _ | _ | _ | frames
    · rfl
    · rfl
    · rfl
    · show (do
        let value ← (do
          let item ← normalizeFilterNode frames (nestedGroup depth)
          let items ← normalizeFilterNodes frames []
          return item :: items : Raising (List Json)).map Json.list
        let rest ← normalizeBranches (frames + 1) []
        return ("all", value) :: rest : Raising (List (String × Json))).map Json.dict =
          .error .recursionError
      rw [ih frames (by omega)]
      rfl

/-- A plan's dictionary with groups in one another. -/
def deepEntries (depth : Nat) : Entries :=
  [("filters", .list [nestedGroup depth])]

theorem normalize_of_nestedGroup {raw : Entries} {depth : Nat}
    (held : raw.lookup "filters" = some (.list [nestedGroup depth])) (frames : Nat)
    (few : frames ≤ 3 * depth) :
    normalizePeriodAndDateFilters (frames + 2) raw = .error .recursionError := by
  have group : normalizeFilterGroup (frames + 2) (.list [nestedGroup depth]) =
      .error .recursionError := by
    rw [normalizeFilterGroup, call_succ, call_succ, normalizeFilterNodes,
      normalizeFilterNode_nestedGroup depth frames few]
    rfl
  rw [normalizePeriodAndDateFilters, normalizeFilterOperators, held]
  dsimp only
  rw [group]
  rfl

theorem validatePlan_of_nestedGroup {raw : Entries} {depth : Nat}
    (held : raw.lookup "filters" = some (.list [nestedGroup depth])) (frames : Nat)
    (few : frames ≤ 3 * depth) (instants : InstantReader) (times : List String) :
    validatePlan (frames + 2) instants times (.dict raw) = .error (.exception .recursionError) := by
  rw [validatePlan, validatePlanParts, normalize_of_nestedGroup held frames few]
  rfl

/-- Four hundred groups in one another run out of a stack of a thousand frames, and the
`RecursionError` is none of the exceptions that callers handle. -/
theorem deepPlan_escapes : validatePlan 1000 strictPython [] (.dict (deepEntries 400)) =
        .error (.exception .recursionError) ∧
      (Raised.exception .recursionError).isMalformedPlan = false :=
  ⟨validatePlan_of_nestedGroup rfl 998 (by decide) strictPython [], rfl⟩

end McpAssistant.BusinessQuery.ValidationErrors
