import McpAssistant.BusinessQuery.Outcomes
import McpAssistant.BusinessQuery.QueryPlan
import McpAssistant.Foundations.Calendar
import McpAssistant.Foundations.Fallible

/-!
# Business time

A period resolves to a half-open range of days, against the business date of
the request or, without one, against the clock of the business timezone.
-/

namespace McpAssistant.BusinessQuery.BusinessTime

open Definitions QueryPlan Outcomes Foundations.Calendar

/-- The days from the first of a month up to the first of a later month. -/
def monthsFrom (year month span : Int) : Int × Int :=
  let after := year * 12 + (month - 1) + span
  ((CivilDate.mk year month 1).number, (CivilDate.mk (after / 12) (after % 12 + 1) 1).number)

def relativeHalfOpen (relative : RelativeRange) (today : Int) : Except Raised (Int × Int) :=
  let weekStart := today - weekday today
  let date := civilDate today
  let quarter := (date.month - 1) / 3
  match relative with
  | .today => .ok (today, today + 1)
  | .thisWeek => .ok (weekStart, weekStart + 7)
  | .lastWeek => .ok (weekStart - 7, weekStart)
  | .thisMonth => .ok (monthsFrom date.year date.month 1)
  | .lastMonth =>
    .ok (if date.month = 1 then monthsFrom (date.year - 1) 12 1
      else monthsFrom date.year (date.month - 1) 1)
  | .thisQuarter => .ok (monthsFrom date.year (quarter * 3 + 1) 3)
  | .lastQuarter =>
    .ok (if quarter = 0 then monthsFrom (date.year - 1) 10 3
      else monthsFrom date.year ((quarter - 1) * 3 + 1) 3)
  | .thisYear => .ok (monthsFrom date.year 1 12)
  | .lastYear => .ok (monthsFrom (date.year - 1) 1 12)
  | .allTime => .error (refused .unsupportedRelativePeriod)

def periodBounds (clock : Except Raised Int) (businessDate : Option Int)
    (period : BusinessPeriod) : Except Raised (Int × Int) :=
  if period.range = .relative .allTime then
    .error (refused .unsupportedRelativePeriod)
  else do
    let today ← match businessDate with
      | some date => .ok date
      | none => clock
    match period.range with
    | .relative range => relativeHalfOpen range today
    | .on day => return (day, day + 1)
    | .since day =>
      if today < day then
        throw (.planRefused .grainUnexpressible (some "since_in_future"))
      else
        return (day, today + 1)
    | .between first last _ => return (first, last + 1)

def timeFilterBounds (clock : Except Raised Int) (businessDate : Option Int)
    (period : BusinessPeriod) : Except Raised (Option (Int × Int)) :=
  if period.range = .relative .allTime then
    .ok none
  else
    (periodBounds clock businessDate period).map some

/-- The relative range that is the calendar bucket holding a given day. -/
def bucketRange : TimeGranularity → RelativeRange
  | .day => .today
  | .week => .thisWeek
  | .month => .thisMonth
  | .quarter => .thisQuarter
  | .year => .thisYear

/-- The half-open range of the calendar bucket that begins on a day. -/
def bucketBounds (start : Int) (granularity : TimeGranularity) : Except Raised (Int × Int) :=
  relativeHalfOpen (bucketRange granularity) start

/-- The first day of the calendar bucket that holds a day, as the database
computes it. -/
def timeBucket (granularity : TimeGranularity) (day : Int) : Int :=
  let date := civilDate day
  match granularity with
  | .day => day
  | .week => day - weekday day
  | .month => (CivilDate.mk date.year date.month 1).number
  | .quarter =>
    (CivilDate.mk date.year ((date.month - 1) / 3 * 3 + 1) 1).number
  | .year => (CivilDate.mk date.year 1 1).number

/-- How far one step of a relative range moves: by days, or by months. -/
inductive CalendarStep where
  | days (count : Int)
  | months (count : Int)

def calendarStep : RelativeRange → Option CalendarStep
  | .today => some (.days 1)
  | .thisWeek => some (.days 7)
  | .lastWeek => some (.days 7)
  | .thisMonth => some (.months 1)
  | .lastMonth => some (.months 1)
  | .thisQuarter => some (.months 3)
  | .lastQuarter => some (.months 3)
  | .thisYear => some (.months 12)
  | .lastYear => some (.months 12)
  | .allTime => none

/-- Moves a date by whole months, clamping the day to the target month. -/
def shiftMonths (value months : Int) : Except Raised Int :=
  let date := civilDate value
  let index := date.year * 12 + (date.month - 1) + months
  let year := index / 12
  let month := index % 12 + 1
  if year < 1 then
    .error (unexpressible "comparison_out_of_range")
  else
    .ok (CivilDate.mk year month (min date.day (daysInMonth year month))).number

def nonEmpty (first after : Int) : Except Raised (Int × Int) :=
  if after ≤ first then
    .error (unexpressible "comparison_empty_range")
  else
    .ok (first, after)

def previousBounds (period : BusinessPeriod) (bounds : Int × Int) : Except Raised (Int × Int) :=
  let step :=
    match period.range with
    | .relative range => calendarStep range
    | _ => none
  match step with
  | some (.days count) => nonEmpty (bounds.1 - count) (bounds.2 - count)
  | some (.months count) => do
    let first ← shiftMonths bounds.1 (-count)
    let after ← shiftMonths bounds.2 (-count)
    nonEmpty first after
  | none =>
    let span := bounds.2 - bounds.1
    -- day 1 is the earliest date there is
    if bounds.1 - 1 < span then
      .error (unexpressible "comparison_out_of_range")
    else
      nonEmpty (bounds.1 - span) bounds.1

/-- The same range a year earlier, by its first and last selected day. -/
def lastYearBounds (bounds : Int × Int) : Except Raised (Int × Int) := do
  let first ← shiftMonths bounds.1 (-12)
  let last ← shiftMonths (bounds.2 - 1) (-12)
  nonEmpty first (last + 1)

def comparisonBounds (clock : Except Raised Int) (businessDate : Option Int)
    (period : BusinessPeriod) (compareTo : CompareTo) :
    Except Raised ((Int × Int) × (Int × Int)) := do
  let current ← periodBounds clock businessDate period
  let compared ← match compareTo with
    | .period other => periodBounds clock businessDate other
    | .previousPeriod => previousBounds period current
    | .samePeriodLastYear => lastYearBounds current
  return (current, compared)

/-- The business date a measure of overdue rows counts from, with its
threshold. -/
def overdueAnchor (measure : MeasureDefinition) (businessDate : Option Int) :
    Except Raised (Option (Int × Int)) :=
  match measure.relativeToBusinessDate, measure.overdueAfterDays with
  | true, some days =>
    match businessDate with
    | none => .error (unexpressible "business_date_required")
    | some date => .ok (some (date, days))
  | _, _ => .ok none

def bucketAnchor (bucket : BucketSetDefinition) (businessDate : Option Int) :
    Except Raised (Option Int) :=
  if bucket.relativeToBusinessDate then
    match businessDate with
    | none => .error (unexpressible "bucket_missing_business_date")
    | some date => .ok (some date)
  else
    .ok none

/-- The plan's period or bucket set is anchored to a business date that was not
supplied. -/
structure BusinessDateViolation where
deriving DecidableEq

def checkBusinessDateRequirement (plan : PlanNode) (bundle : DefinitionBundle)
    (businessDate : Option Int) : Option BusinessDateViolation :=
  let anchoredPeriod :=
    match plan.period with
    | none => false
    | some period =>
      match period.range with
      | .relative _ => true
      | .since _ => true
      | _ => false
  let anchoredBucket :=
    match plan.bucketSet with
    | none => false
    | some name =>
      match bundle.capabilities.find? fun entry =>
          entry.name == name && entry.kind == .bucketSet with
      | none => false
      | some entry => bundle.bucketSets.any fun bucket =>
        bucket.name == entry.resolvesTo && bucket.relativeToBusinessDate
  if businessDate.isSome then
    none
  else if anchoredPeriod || anchoredBucket then
    some {}
  else
    none

section Dated

variable {date : Int} {first second : Except Raised Int}

theorem timeFilterBounds_dated (period : BusinessPeriod) :
    timeFilterBounds first (some date) period = timeFilterBounds second (some date) period :=
  rfl

theorem comparisonBounds_dated (period : BusinessPeriod) (compareTo : CompareTo) :
    comparisonBounds first (some date) period compareTo =
      comparisonBounds second (some date) period compareTo :=
  rfl

theorem checkBusinessDateRequirement_dated (plan : PlanNode) (bundle : DefinitionBundle) :
    checkBusinessDateRequirement plan bundle (some date) = none := by
  simp [checkBusinessDateRequirement]

end Dated

theorem timeBucket_eq_monthStart (day : Int) : timeBucket .month day = monthStart (monthIndex day) ∧
      timeBucket .quarter day = monthStart (monthIndex day / 3 * 3) ∧
      timeBucket .year day = monthStart (monthIndex day / 12 * 12) := by
  obtain ⟨first, last⟩ := civilDate_month day
  simp only [timeBucket, monthIndex]
  refine ⟨number_eq_monthStart first last, ?_, ?_⟩
  · rw [number_eq_monthStart (by omega) (by omega)]
    congr 1
    omega
  · rw [number_eq_monthStart le_rfl (by omega)]
    congr 1
    omega

theorem bucketBounds_eq_monthStart (start : Int) :
    bucketBounds start .month = .ok (monthStart (monthIndex start),
        monthStart (monthIndex start + 1)) ∧
      bucketBounds start .quarter = .ok (monthStart (monthIndex start / 3 * 3),
        monthStart (monthIndex start / 3 * 3 + 3)) ∧
      bucketBounds start .year = .ok (monthStart (monthIndex start / 12 * 12),
        monthStart (monthIndex start / 12 * 12 + 12)) := by
  obtain ⟨first, last⟩ := civilDate_month start
  have span : ∀ year month count : Int, 1 ≤ month → month ≤ 12 →
      monthsFrom year month count = (monthStart (year * 12 + (month - 1)),
        monthStart (year * 12 + (month - 1) + count)) := by
    intro year month count low high
    rw [monthsFrom, number_eq_monthStart low high]
    rfl
  simp only [bucketBounds, bucketRange, relativeHalfOpen, monthIndex]
  rw [span _ _ _ first last, span _ _ _ (by omega) (by omega), span _ _ _ le_rfl (by omega)]
  refine ⟨rfl, ?_, ?_⟩
  · congr 3 <;> omega
  · congr 3 <;> omega

theorem monthStart_enclose_iff {span : Int} (positive : 0 < span) (day other : Int) :
    (monthStart (monthIndex other / span * span) ≤ day ∧
        day < monthStart (monthIndex other / span * span + span)) ↔
      monthStart (monthIndex day / span * span) = monthStart (monthIndex other / span * span) := by
  rw [monthStart_le_iff, lt_monthStart_iff, monthStart_strictMono.injective.eq_iff]
  rw [← Int.ediv_eq_iff_of_pos positive, mul_left_inj' positive.ne']

theorem bucketBounds_enclose (granularity : TimeGranularity) (other : Int) :
    ∃ first after, bucketBounds (timeBucket granularity other) granularity = .ok (first, after) ∧
      ∀ day, (first ≤ day ∧ day < after) ↔
        timeBucket granularity day = timeBucket granularity other := by
  obtain ⟨month, quarter, year⟩ := timeBucket_eq_monthStart other
  cases granularity with
  | day =>
    refine ⟨other, other + 1, rfl, ?_⟩
    intro day
    simp only [timeBucket]
    omega
  | week =>
    refine ⟨_, _, rfl, ?_⟩
    intro day
    simp only [timeBucket, weekday]
    omega
  | month =>
    rw [month, (bucketBounds_eq_monthStart _).1, monthIndex_monthStart]
    refine ⟨_, _, rfl, ?_⟩
    intro day
    have enclose := monthStart_enclose_iff one_pos day other
    simpa [(timeBucket_eq_monthStart day).1] using enclose
  | quarter =>
    rw [quarter, (bucketBounds_eq_monthStart _).2.1, monthIndex_monthStart,
      Int.mul_ediv_cancel _ (by norm_num)]
    refine ⟨_, _, rfl, ?_⟩
    intro day
    rw [(timeBucket_eq_monthStart day).2.1]
    exact monthStart_enclose_iff (by norm_num) day other
  | year =>
    rw [year, (bucketBounds_eq_monthStart _).2.2, monthIndex_monthStart,
      Int.mul_ediv_cancel _ (by norm_num)]
    refine ⟨_, _, rfl, ?_⟩
    intro day
    rw [(timeBucket_eq_monthStart day).2.2]
    exact monthStart_enclose_iff (by norm_num) day other

end McpAssistant.BusinessQuery.BusinessTime
