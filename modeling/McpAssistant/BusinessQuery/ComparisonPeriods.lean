import McpAssistant.BusinessQuery.BusinessTime
import McpAssistant.Foundations.IsoDate

/-!
# The periods a comparison reads

A period is compared with the one before it, or with the same one a year earlier.  A
calendar range is preceded by the range of the same unit; any other period is preceded
by as many days.
-/

namespace McpAssistant.BusinessQuery.ComparisonPeriods

open QueryPlan Outcomes BusinessTime
open Foundations.Calendar Foundations.IsoDate Foundations.Fallible

theorem day_eq (number : Int) :
    (civilDate number).day = number - monthStart (monthIndex number) + 1 := by
  have month := civilDate_month number
  have counted := number_civilDate number
  rw [CivilDate.number] at counted
  rw [monthIndex, monthStart_of_year month.1 month.2]
  omega

theorem daysInMonth_index (index : Int) : daysInMonth (index / 12) (index % 12 + 1) =
      monthStart (index + 1) - monthStart index := by
  have first : 1 ≤ index % 12 + 1 := by omega
  have last : index % 12 + 1 ≤ 12 := by omega
  have whole : index = index / 12 * 12 + (index % 12 + 1 - 1) := by omega
  have length := @daysInMonth_eq (index / 12) _ first last
  have start := @monthStart_of_year (index / 12) _ first last
  have next := @monthStart_next (index / 12) _ first last
  rw [← whole] at start next
  omega

/-- A date shifted by months keeps its place in the month, or takes the month's last
day. -/
theorem shiftMonths_eq (value months : Int) : shiftMonths value months =
      if (monthIndex value + months) / 12 < 1 then
        .error (unexpressible "comparison_out_of_range")
      else
        .ok (monthStart (monthIndex value + months) + min (value - monthStart (monthIndex value))
            (monthStart (monthIndex value + months + 1) -
              monthStart (monthIndex value + months) - 1)) := by
  have length := daysInMonth_index (monthIndex value + months)
  have day := day_eq value
  have start : (CivilDate.mk ((monthIndex value + months) / 12)
      ((monthIndex value + months) % 12 + 1) 1).number =
        monthStart (monthIndex value + months) := rfl
  simp only [CivilDate.number] at start
  show (if (monthIndex value + months) / 12 < 1 then _ else _) = _
  split
  · rfl
  · apply congrArg Except.ok
    show CivilDate.number ⟨(monthIndex value + months) / 12, (monthIndex value + months) % 12 + 1,
      min (civilDate value).day (daysInMonth ((monthIndex value + months) / 12)
        ((monthIndex value + months) % 12 + 1))⟩ = _
    rw [length, day, CivilDate.number]
    dsimp only
    omega

theorem monthStart_lt_next (index : Int) : monthStart index < monthStart (index + 1) :=
  monthStart_strictMono (Int.lt_succ index)

theorem shiftMonths_monthStart (index months : Int) : shiftMonths (monthStart index) months =
      if (index + months) / 12 < 1 then .error (unexpressible "comparison_out_of_range")
      else .ok (monthStart (index + months)) := by
  rw [shiftMonths_eq, monthIndex_monthStart]
  split
  · rfl
  · have next := monthStart_lt_next (index + months)
    apply congrArg Except.ok
    omega

theorem shiftMonths_eq_ok {value months shifted : Int}
    (ran : shiftMonths value months = .ok shifted) :
    shifted = monthStart (monthIndex value + months) +
      min (value - monthStart (monthIndex value)) (monthStart (monthIndex value + months + 1) -
          monthStart (monthIndex value + months) - 1) := by
  rw [shiftMonths_eq] at ran
  split at ran
  · cases ran
  · exact (Except.ok.inj ran).symm

theorem shiftMonths_mono {value other months shifted otherShifted : Int}
    (ordered : value ≤ other) (ran : shiftMonths value months = .ok shifted)
    (otherRan : shiftMonths other months = .ok otherShifted) :
    shifted ≤ otherShifted := by
  rw [shiftMonths_eq_ok ran, shiftMonths_eq_ok otherRan]
  have started := (monthIndex_spec value).1
  have otherStarted := (monthIndex_spec other).1
  have indices : monthIndex value ≤ monthIndex other := monthStart_le_iff.mp (started.trans ordered)
  rcases eq_or_lt_of_le indices with same | earlier
  · rw [same] at started ⊢
    omega
  · have next : monthStart (monthIndex value + months + 1) ≤
        monthStart (monthIndex other + months) :=
      monthStart_strictMono.monotone (by omega)
    have length := monthStart_lt_next (monthIndex other + months)
    omega

theorem shiftMonths_error {value months : Int} {raised : Raised}
    (ran : shiftMonths value months = .error raised) :
    raised = unexpressible "comparison_out_of_range" ∧ (monthIndex value + months) / 12 < 1 := by
  rw [shiftMonths_eq] at ran
  split at ran
  · next early => exact ⟨(Except.error.inj ran).symm, early⟩
  · cases ran

/-- A range of days that is one calendar bucket. -/
structure WholeBucket (unit : TimeGranularity) (bounds : Int × Int) : Prop where
  start : timeBucket unit bounds.1 = bounds.1
  bounds : bucketBounds bounds.1 unit = .ok bounds

def unitOf : PeriodRange → Option TimeGranularity
  | .relative .today => some .day
  | .relative .thisWeek => some .week
  | .relative .lastWeek => some .week
  | .relative .thisMonth => some .month
  | .relative .lastMonth => some .month
  | .relative .thisQuarter => some .quarter
  | .relative .lastQuarter => some .quarter
  | .relative .thisYear => some .year
  | .relative .lastYear => some .year
  | _ => none

/-- The months a unit longer than a week lasts. -/
inductive MonthUnit : TimeGranularity → Int → Prop where
  | month : MonthUnit .month 1
  | quarter : MonthUnit .quarter 3
  | year : MonthUnit .year 12

variable {unit : TimeGranularity} {span : Int} (lasts : MonthUnit unit span)
include lasts

theorem MonthUnit.positive : 0 < span := by
  cases lasts <;> decide

theorem MonthUnit.timeBucket (day : Int) :
    timeBucket unit day = monthStart (monthIndex day / span * span) := by
  cases lasts with
  | month => rw [Int.ediv_one, mul_one]; exact (timeBucket_eq_monthStart day).1
  | quarter => exact (timeBucket_eq_monthStart day).2.1
  | year => exact (timeBucket_eq_monthStart day).2.2

theorem MonthUnit.bucketBounds (day : Int) :
    bucketBounds day unit = .ok (monthStart (monthIndex day / span * span),
      monthStart (monthIndex day / span * span + span)) := by
  cases lasts with
  | month => rw [Int.ediv_one, mul_one]; exact (bucketBounds_eq_monthStart day).1
  | quarter => exact (bucketBounds_eq_monthStart day).2.1
  | year => exact (bucketBounds_eq_monthStart day).2.2

theorem MonthUnit.wholeBucket (place : Int) :
    WholeBucket unit (monthStart (place * span), monthStart (place * span + span)) := by
  have multiple : place * span / span * span = place * span := by
    rw [Int.mul_ediv_cancel place lasts.positive.ne']
  constructor
  · rw [lasts.timeBucket, monthIndex_monthStart, multiple]
  · rw [lasts.bucketBounds, monthIndex_monthStart, multiple]

omit lasts

theorem wholeBucket_week {start : Int} (monday : weekday start = 0) :
    WholeBucket .week (start, start + 7) := by
  constructor
  · show start - weekday start = start
    omega
  · show Except.ok (start - weekday start, start - weekday start + 7) = _
    rw [monday, Int.sub_zero]

theorem wholeBucket_day (start : Int) : WholeBucket .day (start, start + 1) := ⟨rfl, rfl⟩

theorem monthsFrom_eq {year month : Int} (first : 1 ≤ month) (last : month ≤ 12) (count : Int) :
    monthsFrom year month count = (monthStart (year * 12 + (month - 1)),
      monthStart (year * 12 + (month - 1) + count)) := by
  rw [monthsFrom, number_eq_monthStart first last]
  rfl

inductive RelativeBounds : RelativeRange → Int × Int → Prop where
  | day (start : Int) : RelativeBounds .today (start, start + 1)
  | week {relative : RelativeRange} {start : Int} (monday : weekday start = 0)
      (steps : calendarStep relative = some (.days 7))
      (isWeek : unitOf (.relative relative) = some .week) :
      RelativeBounds relative (start, start + 7)
  | months {relative : RelativeRange} {unit : TimeGranularity} {span : Int} (place : Int)
      (lasts : MonthUnit unit span) (steps : calendarStep relative = some (.months span))
      (isUnit : unitOf (.relative relative) = some unit) :
      RelativeBounds relative (monthStart (place * span), monthStart (place * span + span))

variable {relative : RelativeRange}

theorem relativeBounds {today : Int} {bounds : Int × Int}
    (ran : relativeHalfOpen relative today = .ok bounds) :
    RelativeBounds relative bounds := by
  have month := civilDate_month today
  have monday : ∀ start : Int, weekday (start - weekday start) = 0 := by
    intro start
    simp only [weekday]
    omega
  have months : ∀ {unit : TimeGranularity} {span : Int} (place year first : Int),
      MonthUnit unit span → calendarStep relative = some (.months span) →
      unitOf (.relative relative) = some unit → 1 ≤ first → first ≤ 12 →
      year * 12 + (first - 1) = place * span →
      RelativeBounds relative (monthsFrom year first span) := by
    intro unit span place year first lasts steps isUnit low high starts
    rw [monthsFrom_eq low high, starts]
    exact .months place lasts steps isUnit
  cases relative with
  | today => cases ran; exact .day today
  | thisWeek => cases ran; exact .week (monday today) rfl rfl
  | lastWeek =>
    cases ran
    have whole := @RelativeBounds.week .lastWeek (today - weekday today - 7)
      (by simp only [weekday]; omega) rfl rfl
    rwa [Int.sub_add_cancel] at whole
  | thisMonth =>
    cases ran
    exact months ((civilDate today).year * 12 + ((civilDate today).month - 1)) _ _ .month
      rfl rfl month.1 month.2 (by omega)
  | lastMonth =>
    cases ran
    split
    · exact months (((civilDate today).year - 1) * 12 + 11) _ _ .month rfl rfl
        (by omega) (by omega) (by omega)
    · exact months ((civilDate today).year * 12 + ((civilDate today).month - 2)) _ _ .month
        rfl rfl (by omega) (by omega) (by omega)
  | thisQuarter =>
    cases ran
    exact months ((civilDate today).year * 4 + ((civilDate today).month - 1) / 3) _ _
      .quarter rfl rfl (by omega) (by omega) (by omega)
  | lastQuarter =>
    cases ran
    split
    · exact months (((civilDate today).year - 1) * 4 + 3) _ _ .quarter rfl rfl
        (by omega) (by omega) (by omega)
    · exact months ((civilDate today).year * 4 + (((civilDate today).month - 1) / 3 - 1))
        _ _ .quarter rfl rfl (by omega) (by omega) (by omega)
  | thisYear =>
    cases ran
    exact months (civilDate today).year _ _ .year rfl rfl le_rfl (by omega) (by omega)
  | lastYear =>
    cases ran
    exact months ((civilDate today).year - 1) _ _ .year rfl rfl le_rfl (by omega) (by omega)
  | allTime => cases ran

/-- The days of the period before, were there dates before the year 1. -/
def periodBefore (range : PeriodRange) (bounds : Int × Int) : Int × Int :=
  match unitOf range with
  | some unit => (timeBucket unit (bounds.1 - 1), bounds.1)
  | none => (bounds.1 - (bounds.2 - bounds.1), bounds.1)

/-- A comparison with the period before reads it, or is refused because it begins before
the first date there is. -/
def ReadsPeriodBefore (period : BusinessPeriod) (current : Int × Int) : Prop :=
  previousBounds period current = .ok (periodBefore period.range current) ∨
    previousBounds period current = .error (unexpressible "comparison_out_of_range") ∧
      (periodBefore period.range current).1 < 1

theorem nonEmpty_of_lt {first after : Int} (ordered : first < after) :
    nonEmpty first after = .ok (first, after) :=
  if_neg (not_le.mpr ordered)

theorem timeBucket_week {start : Int} (monday : weekday start = 0) :
    timeBucket .week (start - 1) = start - 7 := by
  show start - 1 - weekday (start - 1) = start - 7
  simp only [weekday] at monday ⊢
  omega

theorem MonthUnit.timeBucket_before (lasts : MonthUnit unit span) (place : Int) :
    BusinessTime.timeBucket unit (monthStart (place * span) - 1) =
      monthStart (place * span - span) := by
  have positive := lasts.positive
  have month : monthIndex (monthStart (place * span) - 1) = place * span - 1 := by
    apply le_antisymm
    · have before := (@lt_monthStart_iff (place * span) (monthStart (place * span) - 1)).mp
        (by omega)
      omega
    · have step := monthStart_lt_next (place * span - 1)
      rw [Int.sub_add_cancel] at step
      exact monthStart_le_iff.mp (by omega)
  have earlier : (place * span - 1) / span = place - 1 := by
    rw [Int.ediv_eq_iff_of_pos positive, Int.sub_mul, one_mul]
    omega
  rw [lasts.timeBucket, month, earlier, Int.sub_mul, one_mul]

theorem monthStart_lt_one {index : Int} (early : index / 12 < 1) : monthStart index < 1 := by
  have first : monthStart 12 = 1 := by decide
  rw [← first]
  exact monthStart_strictMono (by omega)

variable {period : BusinessPeriod} {current : Int × Int}

theorem readsPeriodBefore_relative (range : period.range = .relative relative)
    (bounds : RelativeBounds relative current) : ReadsPeriodBefore period current := by
  unfold ReadsPeriodBefore periodBefore previousBounds
  rw [range]
  cases bounds with
  | day start =>
    left
    show nonEmpty (start - 1) (start + 1 - 1) = .ok (start - 1, start)
    rw [Int.add_sub_cancel, nonEmpty_of_lt (by omega)]
  | @week _ start monday steps isWeek =>
    left
    simp only [steps, isWeek, timeBucket_week monday]
    rw [Int.add_sub_cancel, nonEmpty_of_lt (by omega)]
  | @months _ unit span place lasts steps isUnit =>
    have positive := lasts.positive
    simp only [steps, isUnit, lasts.timeBucket_before, shiftMonths_monthStart,
      Int.add_neg_cancel_right]
    rw [← sub_eq_add_neg]
    by_cases early : (place * span - span) / 12 < 1
    · right
      rw [if_pos early]
      exact ⟨rfl, monthStart_lt_one early⟩
    · left
      have late : ¬place * span / 12 < 1 := by omega
      rw [if_neg early, if_neg late]
      exact nonEmpty_of_lt (monthStart_strictMono (by omega))

theorem readsPeriodBefore_other (ordered : current.1 < current.2)
    (range : ∀ relative, period.range ≠ .relative relative) :
    ReadsPeriodBefore period current := by
  have noUnit : unitOf period.range = none := by
    cases isRange : period.range with
    | relative relative => exact absurd isRange (range relative)
    | _ => rfl
  unfold ReadsPeriodBefore periodBefore previousBounds
  simp only [noUnit]
  by_cases early : current.1 - 1 < current.2 - current.1
  · right
    rw [if_pos early]
    refine ⟨rfl, ?_⟩
    omega
  · left
    rw [if_neg early]
    exact nonEmpty_of_lt (by omega)

theorem wholeBucket_periodBefore (bounds : RelativeBounds relative current)
    (isUnit : unitOf (.relative relative) = some unit) :
    WholeBucket unit current ∧ WholeBucket unit (periodBefore (.relative relative) current) := by
  unfold periodBefore
  cases bounds with
  | day start =>
    cases isUnit
    have before := wholeBucket_day (start - 1)
    rw [Int.sub_add_cancel] at before
    exact ⟨wholeBucket_day start, before⟩
  | @week _ start monday steps isWeek =>
    cases isWeek.symm.trans isUnit
    have before := @wholeBucket_week (start - 7) (by simp only [weekday] at monday ⊢; omega)
    rw [Int.sub_add_cancel] at before
    simp only [isWeek, timeBucket_week monday]
    exact ⟨wholeBucket_week monday, before⟩
  | @months _ unit' span place lasts steps isUnit' =>
    cases isUnit'.symm.trans isUnit
    have before := lasts.wholeBucket (place - 1)
    rw [Int.sub_mul, one_mul, Int.sub_add_cancel] at before
    simp only [isUnit', lasts.timeBucket_before]
    exact ⟨lasts.wholeBucket place, before⟩

/-- The same days a year earlier, or a refusal because they lie before the first date. -/
theorem lastYearBounds_spec (ordered : current.1 < current.2) :
    (∃ earlier, lastYearBounds current = .ok earlier ∧ earlier.1 < earlier.2) ∨
      lastYearBounds current = .error (unexpressible "comparison_out_of_range") ∧
        (civilDate current.1).year ≤ 1 := by
  have months := monthStart_le_iff.mp ((monthIndex_spec current.1).1.trans
    (show current.1 ≤ current.2 - 1 by omega))
  have month := civilDate_month current.1
  unfold lastYearBounds
  cases first : shiftMonths current.1 (-12) with
  | error raised =>
    right
    rcases shiftMonths_error first with ⟨rfl, early⟩
    refine ⟨rfl, ?_⟩
    rw [monthIndex] at early
    omega
  | ok start =>
    cases last : shiftMonths (current.2 - 1) (-12) with
    | error raised =>
      right
      rcases shiftMonths_error last with ⟨rfl, early⟩
      refine ⟨rfl, ?_⟩
      rw [monthIndex] at months
      omega
    | ok stop =>
      left
      have kept := shiftMonths_mono (show current.1 ≤ current.2 - 1 by omega) first last
      refine ⟨(start, stop + 1), nonEmpty_of_lt (Int.lt_add_one_of_le kept), ?_⟩
      exact Int.lt_add_one_of_le kept

theorem lastYearBounds_eq_ok {earlier : Int × Int} (ran : lastYearBounds current = .ok earlier) :
    shiftMonths current.1 (-12) = .ok earlier.1 ∧
      shiftMonths (current.2 - 1) (-12) = .ok (earlier.2 - 1) := by
  simp only [lastYearBounds, bind_eq_ok] at ran
  rcases ran with ⟨start, first, stop, last, kept⟩
  unfold nonEmpty at kept
  split at kept
  · cases kept
  · cases kept
    rw [Int.add_sub_cancel]
    exact ⟨first, last⟩

theorem lastYearBounds_mono {other earlier otherEarlier : Int × Int}
    (starts : current.1 ≤ other.1) (stops : current.2 ≤ other.2)
    (ran : lastYearBounds current = .ok earlier)
    (otherRan : lastYearBounds other = .ok otherEarlier) :
    earlier.1 ≤ otherEarlier.1 ∧ earlier.2 ≤ otherEarlier.2 := by
  rcases lastYearBounds_eq_ok ran with ⟨first, last⟩
  rcases lastYearBounds_eq_ok otherRan with ⟨otherFirst, otherLast⟩
  constructor
  · exact shiftMonths_mono starts first otherFirst
  · have kept := shiftMonths_mono (show current.2 - 1 ≤ other.2 - 1 by omega) last otherLast
    omega

structure ComparesAsMeant (period : BusinessPeriod) (current : Int × Int) : Prop where
  ordered : current.1 < current.2
  before : ReadsPeriodBefore period current
  ends : (periodBefore period.range current).2 = current.1
  sameUnit : ∀ unit, unitOf period.range = some unit →
    WholeBucket unit current ∧ WholeBucket unit (periodBefore period.range current)
  sameDays : unitOf period.range = none →
    (periodBefore period.range current).2 - (periodBefore period.range current).1 =
      current.2 - current.1
  yearEarlier : (∃ earlier, lastYearBounds current = .ok earlier ∧ earlier.1 < earlier.2) ∨
    lastYearBounds current = .error (unexpressible "comparison_out_of_range") ∧
      (civilDate current.1).year ≤ 1
  monotone : ∀ other earlier otherEarlier, current.1 ≤ other.1 → current.2 ≤ other.2 →
    lastYearBounds current = .ok earlier → lastYearBounds other = .ok otherEarlier →
      earlier.1 ≤ otherEarlier.1 ∧ earlier.2 ≤ otherEarlier.2

theorem RelativeBounds.ordered
    (bounds : RelativeBounds relative current) : current.1 < current.2 := by
  cases bounds with
  | day start => exact Int.lt_succ start
  | week => exact Int.lt_add_of_pos_right _ (by decide)
  | months place lasts =>
    exact monthStart_strictMono (Int.lt_add_of_pos_right _ lasts.positive)

theorem resolves_range {range : PeriodRange} {today : Int} (ran : (match range with
      | .relative relative => relativeHalfOpen relative today
      | .on day => .ok (day, day + 1)
      | .since day =>
        if today < day then
          .error (.planRefused .grainUnexpressible (some "since_in_future"))
        else .ok (day, today + 1)
      | .between first last _ => .ok (first, last + 1)) = .ok current) :
    (∃ relative, range = .relative relative ∧ RelativeBounds relative current) ∨
      (∀ relative, range ≠ .relative relative) ∧ current.1 < current.2 := by
  cases range with
  | relative relative => exact .inl ⟨relative, rfl, relativeBounds ran⟩
  | on day =>
    cases ran
    exact .inr ⟨nofun, Int.lt_succ day⟩
  | since day =>
    dsimp only at ran
    split at ran
    · cases ran
    · cases ran
      refine .inr ⟨nofun, ?_⟩
      dsimp only
      omega
  | between first last inOrder =>
    cases ran
    exact .inr ⟨nofun, Int.lt_add_one_of_le inOrder⟩

theorem comparesAsMeant {clock : Except Raised Int} {businessDate : Option Int}
    {period : BusinessPeriod} {current : Int × Int}
    (bounded : periodBounds clock businessDate period = .ok current) :
    ComparesAsMeant period current := by
  have ends : (periodBefore period.range current).2 = current.1 := by
    unfold periodBefore
    split <;> rfl
  have sameDays : unitOf period.range = none →
      (periodBefore period.range current).2 - (periodBefore period.range current).1 =
        current.2 - current.1 := by
    intro noUnit
    rw [periodBefore, noUnit]
    show current.1 - (current.1 - (current.2 - current.1)) = _
    omega
  have resolved : (∃ relative, period.range = .relative relative ∧
      RelativeBounds relative current) ∨
        (∀ relative, period.range ≠ .relative relative) ∧ current.1 < current.2 := by
    unfold periodBounds at bounded
    split at bounded
    · cases bounded
    · cases businessDate with
      | some date => exact resolves_range bounded
      | none =>
        rcases bind_eq_ok.mp bounded with ⟨today, -, ran⟩
        exact resolves_range ran
  have ordered : current.1 < current.2 := by
    rcases resolved with ⟨relative, -, bounds⟩ | ⟨-, ordered⟩
    · exact bounds.ordered
    · exact ordered
  refine ⟨ordered, ?_, ends, ?_, sameDays, lastYearBounds_spec ordered,
    fun other earlier otherEarlier => lastYearBounds_mono⟩
  · rcases resolved with ⟨relative, range, bounds⟩ | ⟨other, -⟩
    · exact readsPeriodBefore_relative range bounds
    · exact readsPeriodBefore_other ordered other
  · intro unit isUnit
    rcases resolved with ⟨relative, range, bounds⟩ | ⟨other, -⟩
    · rw [range] at isUnit ⊢
      exact wholeBucket_periodBefore bounds isUnit
    · cases range : period.range with
      | relative relative => exact absurd range (other relative)
      | _ => rw [range] at isUnit; cases isUnit

/-- February 2028, relative to one of its days. -/
theorem comparesAsMeant_thisMonth :
    ComparesAsMeant ⟨"invoice.created_at", .relative .thisMonth, none⟩ (740378, 740407) :=
  @comparesAsMeant (.ok 0) (some 740390) _ _ (by decide)

/-- The claim of a whole calendar bucket, however the period names it. -/
def PrecedesAnyBucket (current previous : Int × Int) : Prop :=
  previous.2 = current.1 ∧ ∀ unit, WholeBucket unit current → WholeBucket unit previous

/-- The dates from 1 to 31 March 2026 are compared with the 31 days before them, and not
with February. -/
theorem explicitMarch_before :
    ¬∀ (clock : Except Raised Int) (businessDate : Option Int) (period : BusinessPeriod)
      (current previous : Int × Int),
      periodBounds clock businessDate period = .ok current →
        previousBounds period current = .ok previous → PrecedesAnyBucket current previous := by
  intro preceded
  have march := preceded (.ok 0) (some 739700)
    ⟨"invoice.created_at", .between 739676 739706 (by decide), none⟩ (739676, 739707)
    (739645, 739676) (by decide) (by decide)
  have whole : WholeBucket .month (739676, 739707) := ⟨by decide, by decide⟩
  have start := (march.2 .month whole).start
  exact absurd start (by decide)

end McpAssistant.BusinessQuery.ComparisonPeriods
