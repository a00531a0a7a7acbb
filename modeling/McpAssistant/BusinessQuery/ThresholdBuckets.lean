import McpAssistant.BusinessQuery.BusinessTime
import McpAssistant.BusinessQuery.FilterEvaluation

/-!
# Threshold buckets

A bucket set names the ranges of a column, or of the age that a date has on the business
date.  It is compiled to a CASE whose first true condition gives the label.
-/

namespace McpAssistant.BusinessQuery.ThresholdBuckets

open BusinessTime Definitions FilterEvaluation Outcomes List

/-- The two shapes of a bucket set; one of the lists is empty. -/
structure BucketShape where
  buckets : List (String × Option Int)
  bucketPredicates : List (String × String)

section Compilation

-- Integers among the column's values, and the days from a date to the business date.
variable {Value : Type} [LinearOrder Value] (number : Int ↪o Value)
  (daysTo : Int → Value → Option Value) (dialect : String)

def ageInDays (cell : Option Value) (anchor : Int) : Except Raised (Option Value) :=
  if ["sqlite", "mysql", "mariadb"].contains dialect then .ok (cell.bind (daysTo anchor))
  else .error (unexpressible "bucket_unsupported_dialect")

/-- The condition of a bucket, in SQL's logic. -/
def whenCondition (value : Option Value) (previous bound : Option Int) : Truth :=
  let atMost := fun bound => value.map fun value => decide (value ≤ number bound)
  let above := fun bound => value.map fun value => decide (number bound < value)
  match bound, previous with
  | none, _ => some value.isSome
  | some bound, none => atMost bound
  | some bound, some previous => Truth.and (above previous) (atMost bound)

def thresholdWhens (value : Option Value) :
    Option Int → List (String × Option Int) → List (Truth × String)
  | _, [] => []
  | previous, (label, bound) :: buckets =>
    (whenCondition number value previous bound, label) :: thresholdWhens value bound buckets

def caseOf (whens : List (Truth × String)) : Option String :=
  (whens.find? fun condition => condition.1 = some true).map Prod.snd

variable (bucket : BucketSetDefinition) (businessDate : Option Int)

/-- The value that a threshold set compares. -/
def comparedValue (cell : Option Value) : Except Raised (Option Value) := do
  match ← bucketAnchor bucket businessDate with
  | none => return cell
  | some date => ageInDays daysTo dialect cell date

/-- The label of a row, by its cell and by what the predicates say of it. -/
def bucketCase (shape : BucketShape) (predicateTruth : String → Truth) (cell : Option Value) :
    Except Raised (Option String) :=
  if shape.bucketPredicates ≠ [] then
    .ok (caseOf (shape.bucketPredicates.map fun entry => (predicateTruth entry.2, entry.1)))
  else do
    let value ← comparedValue daysTo dialect bucket businessDate cell
    return caseOf (thresholdWhens number value none shape.buckets)

end Compilation

/-- Bounds that go up from a bound, with a catch-all at the end only. -/
def Ascending : Option Int → List (String × Option Int) → Prop
  | _, [] => True
  | _, (_, none) :: buckets => buckets = []
  | previous, (_, some bound) :: buckets =>
    (∀ lower ∈ previous, lower < bound) ∧ Ascending (some bound) buckets

structure ThresholdSet where
  buckets : List (String × Option Int)
  ascending : Ascending none buckets

/-- The buckets with the bounds that a value is above of and not above of. -/
def intervals : Option Int → List (String × Option Int) → List (String × Option Int × Option Int)
  | _, [] => []
  | previous, (label, bound) :: buckets => (label, previous, bound) :: intervals bound buckets

variable {Value : Type} [LinearOrder Value] (number : Int ↪o Value)

def Inside (value : Value) (interval : String × Option Int × Option Int) : Prop :=
  (∀ lower ∈ interval.2.1, number lower < value) ∧ ∀ upper ∈ interval.2.2, value ≤ number upper

structure Partitions (buckets : List (String × Option Int)) (value : Option Value)
    (label : Option String) : Prop where
  ofNull : value = none → label = none
  ofCovered : ∀ inner ∈ value, ∀ interval ∈ intervals none buckets,
    Inside number inner interval → label = some interval.1
  ofUncovered : ∀ inner ∈ value, (∀ interval ∈ intervals none buckets,
    ¬Inside number inner interval) → label = none
  once : (intervals none buckets).Pairwise fun earlier later =>
    ∀ inner, Inside number inner earlier → ¬Inside number inner later
  catchAll : (∃ name, (name, none) ∈ buckets) → ∀ inner ∈ value,
    ∃ interval ∈ intervals none buckets, Inside number inner interval

variable {number} {previous : Option Int} {bound : Int} {buckets : List (String × Option Int)}
  {value : Value} {interval : String × Option Int × Option Int}

theorem above_of_mem (ascending : Ascending (some bound) buckets)
    (member : interval ∈ intervals (some bound) buckets) (inside : Inside number value interval) :
    number bound < value := by
  induction buckets generalizing bound with
  | nil => cases member
  | cons bucket buckets later =>
    rcases bucket with ⟨label, next⟩
    rcases mem_cons.mp member with rfl | behind
    · exact inside.1 bound rfl
    · cases next with
      | none =>
        cases ascending
        cases behind
      | some next =>
        have above := later ascending.2 behind
        exact (number.lt_iff_lt.mpr (ascending.1 bound rfl)).trans above

theorem once_of_ascending (ascending : Ascending previous buckets) :
    (intervals previous buckets).Pairwise fun earlier later =>
      ∀ inner, Inside number inner earlier → ¬Inside number inner later := by
  induction buckets generalizing previous with
  | nil => exact Pairwise.nil
  | cons bucket buckets later =>
    rcases bucket with ⟨label, _ | bound⟩
    · cases ascending
      exact pairwise_singleton _ _
    · apply Pairwise.cons
      · intro interval member inner first second
        exact absurd (first.2 bound rfl) (not_le.mpr (above_of_mem ascending.2 member second))
      · exact later ascending.2

theorem covered_of_catchAll (ascending : Ascending previous buckets)
    (starts : ∀ lower ∈ previous, number lower < value)
    (catchAll : ∃ name, (name, none) ∈ buckets) :
    ∃ interval ∈ intervals previous buckets, Inside number value interval := by
  induction buckets generalizing previous with
  | nil =>
    rcases catchAll with ⟨_, member⟩
    cases member
  | cons bucket buckets later =>
    rcases bucket with ⟨label, _ | bound⟩
    · exact ⟨_, mem_cons_self, starts, nofun⟩
    · rcases le_or_gt value (number bound) with below | above
      · refine ⟨_, mem_cons_self, starts, ?_⟩
        rintro _ ⟨⟩
        exact below
      · have behind : ∃ name, (name, none) ∈ buckets := by simpa using catchAll
        have next : ∀ lower ∈ some bound, number lower < value := by
          rintro _ ⟨⟩
          exact above
        rcases later ascending.2 next behind with ⟨interval, member, inside⟩
        exact ⟨interval, mem_cons_of_mem _ member, inside⟩

theorem whenCondition_some (starts : ∀ lower ∈ previous, number lower < value) :
    whenCondition number (some value) previous (some bound) = some (decide (value ≤ number bound)) := by
  cases previous with
  | none => rfl
  | some lower =>
    have above : decide (number lower < value) = true := decide_eq_true (starts lower rfl)
    show Truth.and (some (decide (number lower < value))) (some (decide _)) = _
    rw [above]
    cases decide (value ≤ number bound) <;> rfl

/-- The first condition that a value meets is that of the bucket with it. -/
theorem caseOf_thresholdWhens (ascending : Ascending previous buckets)
    (starts : ∀ lower ∈ previous, number lower < value) :
    (∀ interval ∈ intervals previous buckets, Inside number value interval →
      caseOf (thresholdWhens number (some value) previous buckets) = some interval.1) ∧
    ((∀ interval ∈ intervals previous buckets, ¬Inside number value interval) →
      caseOf (thresholdWhens number (some value) previous buckets) = none) := by
  induction buckets generalizing previous with
  | nil => exact ⟨nofun, fun _ => rfl⟩
  | cons bucket buckets later =>
    rcases bucket with ⟨label, _ | bound⟩
    · cases ascending
      constructor
      · rintro interval member _
        rw [mem_singleton.mp member]
        rfl
      · intro outside
        exact absurd ⟨starts, nofun⟩ (outside _ mem_cons_self)
    · rw [thresholdWhens, whenCondition_some starts, caseOf, find?_cons]
      rcases le_or_gt value (number bound) with below | above
      · have here : Inside number value (label, previous, some bound) :=
          ⟨starts, by rintro _ ⟨⟩; exact below⟩
        rw [decide_eq_true below]
        constructor
        · intro interval member inside
          rcases mem_cons.mp member with rfl | behind
          · rfl
          · exact absurd below (not_le.mpr (above_of_mem ascending.2 behind inside))
        · intro outside
          exact absurd here (outside _ mem_cons_self)
      · have next : ∀ lower ∈ some bound, number lower < value := by
          rintro _ ⟨⟩
          exact above
        rcases later ascending.2 next with ⟨covered, uncovered⟩
        rw [decide_eq_false (not_le.mpr above)]
        constructor
        · intro interval member inside
          rcases mem_cons.mp member with rfl | behind
          · exact absurd (inside.2 bound rfl) (not_le.mpr above)
          · exact covered interval behind inside
        · intro outside
          exact uncovered fun interval member => outside interval (mem_cons_of_mem _ member)

theorem caseOf_null (previous : Option Int) (buckets : List (String × Option Int)) :
    caseOf (thresholdWhens number none previous buckets) = none := by
  induction buckets generalizing previous with
  | nil => rfl
  | cons bucket buckets later =>
    rcases bucket with ⟨label, bound⟩
    have unknown : whenCondition number none previous bound ≠ some true := by
      cases bound <;> cases previous <;> nofun
    rw [thresholdWhens, caseOf, find?_cons_of_neg (by simpa using unknown)]
    exact later bound

/-- A row gets the label of the bucket with its value, and a null value gets none. -/
theorem bucketCase_partitions (daysTo : Int → Value → Option Value) (dialect : String)
    (bucket : BucketSetDefinition) (businessDate : Option Int) (set : ThresholdSet)
    (predicateTruth : String → Truth) (cell : Option Value) {compared : Option Value}
    (reads : comparedValue daysTo dialect bucket businessDate cell = .ok compared) :
    ∃ label, bucketCase number daysTo dialect bucket businessDate ⟨set.buckets, []⟩
        predicateTruth cell = .ok label ∧ Partitions number set.buckets compared label := by
  refine ⟨caseOf (thresholdWhens number compared none set.buckets), ?_, ?_, ?_, ?_,
    once_of_ascending set.ascending, ?_⟩
  · rw [bucketCase, if_neg (not_not.mpr rfl), reads]
    rfl
  · rintro rfl
    exact caseOf_null none set.buckets
  · rintro value rfl
    exact (caseOf_thresholdWhens set.ascending nofun).1
  · rintro value rfl
    exact (caseOf_thresholdWhens set.ascending nofun).2
  · rintro catchAll value rfl
    exact covered_of_catchAll set.ascending nofun catchAll

theorem bucketCase_partitions_aging : ∃ label, bucketCase (RelIso.refl (· ≤ ·)).toRelEmbedding
    (fun anchor date => some (anchor - date)) "sqlite" ⟨"aging", "invoice", true⟩ (some 100)
    ⟨[("recent", some 30), ("older", none)], []⟩ (fun _ => none) (some 50) = .ok label ∧
      Partitions (RelIso.refl (· ≤ ·)).toRelEmbedding [("recent", some 30), ("older", none)]
        (some 50) label :=
  bucketCase_partitions _ "sqlite" ⟨"aging", "invoice", true⟩ (some 100)
    ⟨[("recent", some 30), ("older", none)], nofun, rfl⟩ (fun _ => none) (some 50) rfl

end McpAssistant.BusinessQuery.ThresholdBuckets
