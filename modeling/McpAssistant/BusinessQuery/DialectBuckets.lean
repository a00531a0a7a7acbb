import McpAssistant.BusinessQuery.ComparisonPeriods
import McpAssistant.BusinessQuery.SetMembership

/-!
# The calendar buckets of the databases

The first day of a calendar bucket is computed by MySQL and by SQLite for the rows of a
statement, and in Python for the bounds of a period.
-/

namespace McpAssistant.BusinessQuery.DialectBuckets

open QueryPlan Outcomes BusinessTime ComparisonPeriods SetMembership
open Foundations.Calendar Foundations.IsoDate

/-! ## MySQL -/

/-- A day that is a date. -/
def dated (day : Int) : Option Int :=
  if InRange day then some day else none

/-- The year a date is made of: one below 100 stands for one of the years 1970 to 2069. -/
def fullYear (year : Int) : Int :=
  if year < 70 then year + 2000 else if year < 100 then year + 1900 else year

def makedate (year dayOfYear : Int) : Option Int :=
  if 1 ≤ dayOfYear then
    dated ((CivilDate.mk (fullYear year) 1 1).number + (dayOfYear - 1))
  else
    none

/-- The units a date is moved by. -/
inductive MysqlUnit where
  | month
  | quarter

def MysqlUnit.months : MysqlUnit → Int
  | .month => 1
  | .quarter => 3

/-- A date moved by months keeps its day, or takes the last one of the month. -/
def timestampadd (unit : MysqlUnit) (count date : Int) : Option Int :=
  let index := monthIndex date + unit.months * count
  dated (monthStart index + min ((civilDate date).day - 1)
    (daysInMonth (index / 12) (index % 12 + 1) - 1))

def subdate (date count : Int) : Option Int :=
  dated (date - count)

def mysqlBucket (column : Stamp) (granularity : TimeGranularity) : Option Int :=
  let date := civilDate column.day
  let yearStart := makedate date.year 1
  match granularity with
  | .day => some column.day
  | .week => subdate column.day (weekday column.day)
  | .month => yearStart.bind fun start => timestampadd .month (date.month - 1) start
  | .quarter =>
    yearStart.bind fun start => timestampadd .quarter ((date.month + 2) / 3 - 1) start
  | .year => yearStart

/-- What a point in time is changed by, in turn, before its date is taken. -/
inductive Modifier where
  | days (count : Int)
  | months (count : Int)
  | weekday (number : Int)
  | startOfMonth
  | startOfYear

/-- Months keep the day, counted on past the end of a shorter month; a weekday, Sunday
being 0, moves to the next day that is one. -/
def Modifier.apply (stamp : Stamp) : Modifier → Stamp
  | .days count => { stamp with day := stamp.day + count }
  | .months count =>
    { stamp with
      day := monthStart (monthIndex stamp.day + count) + ((civilDate stamp.day).day - 1) }
  | .weekday number =>
    { stamp with
      day := stamp.day + (number - (Foundations.Calendar.weekday stamp.day + 1) % 7) % 7 }
  | .startOfMonth =>
    let date := civilDate stamp.day
    ⟨(CivilDate.mk date.year date.month 1).number, 0⟩
  | .startOfYear => ⟨(CivilDate.mk (civilDate stamp.day).year 1 1).number, 0⟩

/-- The date text of a point in time. -/
def sqliteDate (stamp : Stamp) (modifiers : List Modifier) : String :=
  isoFormat (modifiers.foldl Modifier.apply stamp).day

def sqliteBucket (column : Stamp) : TimeGranularity → String
  | .day => sqliteDate column []
  | .week => sqliteDate column [.days (-6), .weekday 1]
  | .month => sqliteDate column [.startOfMonth]
  | .quarter =>
    let monthsIn := ((civilDate column.day).month - 1) % 3
    sqliteDate column [.startOfMonth, .months (-monthsIn)]
  | .year => sqliteDate column [.startOfYear]

/-- A bucket as a driver returns it. -/
inductive BucketValue where
  | datetime (value : Stamp)
  | date (day : Int)
  | text (value : String)
deriving DecidableEq

def mysqlDialects : List String := ["mysql", "mariadb"]

def bucketExpression (dialectName : String) (column : Stamp)
    (granularity : TimeGranularity) : Except Raised (Option BucketValue) :=
  if dialectName ∈ mysqlDialects then
    .ok ((mysqlBucket column granularity).map .date)
  else if dialectName = "sqlite" then
    .ok (some (.text (sqliteBucket column granularity)))
  else
    .error (unexpressible "bucket_unsupported_dialect")

def bucketStart : BucketValue → Option Int
  | .datetime value => some value.day
  | .date day => some day
  | .text value => fromIsoFormat (String.ofList (value.toList.take 10))

/-- The bounds of the calendar bucket that holds a day.  There are none where one of them
is no date: the years end with 9999. -/
def bucketDates (day : Int) (granularity : TimeGranularity) : Option (Int × Int) := do
  let bounds ← (bucketBounds day granularity).toOption
  let first ← dated bounds.1
  let after ← dated bounds.2
  return (first, after)

/-- Whether a half-open range lies inside one calendar bucket. -/
def withinOneBucket (bounds : Int × Int) (granularity : TimeGranularity) : Option Bool :=
  (bucketDates bounds.1 granularity).map fun bucket => decide (bounds.2 ≤ bucket.2)

def businessDatetimeBounds (isTimezone : String → Bool) (start after : Int)
    (timezone : String) : Option (Stamp × Stamp) :=
  if isTimezone timezone = true ∧ start < after then
    some (midnight start, midnight after)
  else
    none

/-- One selected bucket: its first day and its bounds on the stored column. -/
structure SelectedPeriod where
  start : Int
  lower : Stamp
  upper : Stamp

def selectedPeriod (isTimezone : String → Bool) (timezone : String)
    (granularity : TimeGranularity) (value : BucketValue) : Option SelectedPeriod := do
  let start ← bucketStart value
  let bucket ← bucketDates start granularity
  let bounds ← businessDatetimeBounds isTimezone bucket.1 bucket.2 timezone
  return ⟨start, bounds.1, bounds.2⟩

/-- A row dated inside a selected period. -/
def SelectedPeriod.holds (period : SelectedPeriod) (column : Stamp) : Bool :=
  !column.before period.lower && column.before period.upper

theorem monthStart_twelve : monthStart 12 = 1 := by decide

variable {day : Int}

theorem monthIndex_of_inRange (valid : InRange day) : 12 ≤ monthIndex day := by
  rw [← monthStart_le_iff, monthStart_twelve]
  exact valid.1

theorem multiple_twelve_le {unit : TimeGranularity} {span : Int}
    (lasts : MonthUnit unit span) {index : Int} (late : 12 ≤ index) :
    12 ≤ index / span * span := by
  cases lasts <;> omega

theorem bucketBounds_spec (granularity : TimeGranularity) (day : Int) :
    ∃ after, bucketBounds day granularity = .ok (timeBucket granularity day, after) ∧
      ∀ other, (timeBucket granularity day ≤ other ∧ other < after) ↔
        timeBucket granularity other = timeBucket granularity day := by
  have ofMonths : ∀ span, MonthUnit granularity span → ∃ after, bucketBounds day granularity =
          .ok (timeBucket granularity day, after) ∧
        ∀ other, (timeBucket granularity day ≤ other ∧ other < after) ↔
          timeBucket granularity other = timeBucket granularity day := by
    intro span lasts
    refine ⟨monthStart (monthIndex day / span * span + span), ?_, ?_⟩
    · rw [lasts.bucketBounds, lasts.timeBucket]
    · intro other
      rw [lasts.timeBucket, lasts.timeBucket]
      exact monthStart_enclose_iff lasts.positive other day
  cases granularity with
  | day =>
    refine ⟨day + 1, rfl, ?_⟩
    intro other
    simp only [timeBucket]
    omega
  | week =>
    refine ⟨day - weekday day + 7, rfl, ?_⟩
    intro other
    simp only [timeBucket, weekday]
    omega
  | month => exact ofMonths 1 .month
  | quarter => exact ofMonths 3 .quarter
  | year => exact ofMonths 12 .year

/-- The first day of a date's bucket is a date. -/
theorem inRange_timeBucket (granularity : TimeGranularity)
    (valid : InRange day) : InRange (timeBucket granularity day) := by
  have low : 1 ≤ timeBucket granularity day := by
    have ofMonths : ∀ span, MonthUnit granularity span → 1 ≤ timeBucket granularity day := by
      intro span lasts
      rw [lasts.timeBucket, ← monthStart_twelve]
      apply monthStart_strictMono.monotone
      exact multiple_twelve_le lasts (monthIndex_of_inRange valid)
    cases granularity with
    | day => exact valid.1
    | week =>
      have first := valid.1
      simp only [timeBucket, weekday]
      omega
    | month => exact ofMonths 1 .month
    | quarter => exact ofMonths 3 .quarter
    | year => exact ofMonths 12 .year
  rcases bucketBounds_spec granularity day with ⟨after, -, encloses⟩
  have inside := (encloses day).mpr rfl
  exact ⟨low, inside.1.trans valid.2⟩

theorem dated_of_inRange (valid : InRange day) : dated day = some day := if_pos valid

/-- A date has bounds in Python when its bucket is not the last one there is. -/
theorem bucketDates_spec (granularity : TimeGranularity) (valid : InRange day) :
    (timeBucket granularity day = timeBucket granularity lastDay ∧
        bucketDates day granularity = none) ∨
      (timeBucket granularity day ≠ timeBucket granularity lastDay ∧
        ∃ after, bucketDates day granularity = some (timeBucket granularity day, after) ∧
          ∀ other, (timeBucket granularity day ≤ other ∧ other < after) ↔
            timeBucket granularity other = timeBucket granularity day) := by
  rcases bucketBounds_spec granularity day with ⟨after, bounds, encloses⟩
  have first := inRange_timeBucket granularity valid
  have inside := (encloses day).mpr rfl
  have dates : bucketDates day granularity =
      (dated after).map fun after => (timeBucket granularity day, after) := by
    rw [bucketDates, bounds]
    show (dated (timeBucket granularity day)).bind _ = _
    rw [dated_of_inRange first]
    cases dated after <;> rfl
  rw [dates]
  have last := encloses lastDay
  by_cases isDate : InRange after
  · right
    constructor
    · intro same
      have enclosed := last.mpr same.symm
      exact absurd isDate.2 (not_le.mpr enclosed.2)
    · exact ⟨after, by rw [dated_of_inRange isDate, Option.map_some], encloses⟩
  · left
    constructor
    · symm
      apply last.mp
      constructor
      · exact first.2
      · have positive : 1 ≤ after := (valid.1.trans_lt inside.2).le
        by_contra ended
        exact isDate ⟨positive, not_lt.mp ended⟩
    · rw [dated, if_neg isDate, Option.map_none]

@[simp] theorem Modifier.apply_startOfMonth (stamp : Stamp) :
    Modifier.apply stamp .startOfMonth = ⟨monthStart (monthIndex stamp.day), 0⟩ := by
  have bucket := (timeBucket_eq_monthStart stamp.day).1
  simp only [timeBucket] at bucket
  simp only [Modifier.apply, bucket]

theorem sqliteBucket_eq (column : Stamp) (granularity : TimeGranularity) :
    sqliteBucket column granularity = isoFormat (timeBucket granularity column.day) := by
  have month := civilDate_month column.day
  cases granularity with
  | week =>
    apply congrArg isoFormat
    simp only [List.foldl_cons, List.foldl_nil, Modifier.apply, timeBucket, weekday]
    omega
  | quarter =>
    apply congrArg isoFormat
    rw [(timeBucket_eq_monthStart column.day).2.1]
    simp only [List.foldl_cons, List.foldl_nil, Modifier.apply_startOfMonth]
    simp only [Modifier.apply, monthIndex_monthStart, day_eq]
    have index : monthIndex column.day + -(((civilDate column.day).month - 1) % 3) =
        monthIndex column.day / 3 * 3 := by
      rw [monthIndex]
      omega
    rw [index]
    omega
  | _ => rfl

/-- A date whose year MySQL reads as it is written. -/
theorem makedate_eq {year : Int} (written : 100 ≤ year) (valid : InRange (monthStart (year * 12))) :
    makedate year 1 = some (monthStart (year * 12)) := by
  have start : (CivilDate.mk year 1 1).number = monthStart (year * 12) := by
    rw [number_eq_monthStart le_rfl (by norm_num)]
    congr 1
    omega
  rw [makedate, if_pos le_rfl, fullYear, if_neg (by omega), if_neg (by omega), start,
    sub_self, add_zero]
  exact dated_of_inRange valid

theorem timestampadd_monthStart (unit : MysqlUnit) (count index : Int)
    (valid : InRange (monthStart (index + unit.months * count))) :
    timestampadd unit count (monthStart index) =
      some (monthStart (index + unit.months * count)) := by
  have next := monthStart_lt_next (index + unit.months * count)
  simp only [timestampadd, monthIndex_monthStart, day_eq, daysInMonth_index]
  have first : min (monthStart index - monthStart index + 1 - 1)
      (monthStart (index + unit.months * count + 1) -
        monthStart (index + unit.months * count) - 1) = 0 := by
    omega
  rw [first, add_zero]
  exact dated_of_inRange valid

theorem mysqlBucket_eq {column : Stamp} (valid : InRange column.day)
    (written : 100 ≤ (civilDate column.day).year) (granularity : TimeGranularity) :
    mysqlBucket column granularity = some (timeBucket granularity column.day) := by
  have month := civilDate_month column.day
  have first := inRange_timeBucket granularity valid
  have year := inRange_timeBucket .year valid
  have index : monthIndex column.day / 12 * 12 = (civilDate column.day).year * 12 := by
    rw [monthIndex]
    omega
  rw [(timeBucket_eq_monthStart column.day).2.2, index] at year
  have made := makedate_eq written year
  cases granularity with
  | day => rfl
  | week => exact dated_of_inRange first
  | month =>
    rw [(timeBucket_eq_monthStart column.day).1] at first ⊢
    simp only [mysqlBucket, made, Option.bind_some]
    have place : (civilDate column.day).year * 12 +
        MysqlUnit.month.months * ((civilDate column.day).month - 1) = monthIndex column.day := by
      rw [monthIndex, MysqlUnit.months, one_mul]
    rw [timestampadd_monthStart, place]
    rw [place]
    exact first
  | quarter =>
    rw [(timeBucket_eq_monthStart column.day).2.1] at first ⊢
    simp only [mysqlBucket, made, Option.bind_some]
    have place : (civilDate column.day).year * 12 +
        MysqlUnit.quarter.months * (((civilDate column.day).month + 2) / 3 - 1) =
          monthIndex column.day / 3 * 3 := by
      rw [monthIndex, MysqlUnit.months]
      omega
    rw [timestampadd_monthStart, place]
    rw [place]
    exact first
  | year =>
    rw [(timeBucket_eq_monthStart column.day).2.2, index]
    exact made

def dialects : List String := mysqlDialects ++ ["sqlite"]

/-- A date whose year the functions of a database read as it is written. -/
structure Holds (dialectName : String) (column : Stamp) : Prop where
  isDate : InRange column.day
  written : dialectName ∈ mysqlDialects → 100 ≤ (civilDate column.day).year

/-- A date text is read back whole. -/
theorem bucketStart_isoFormat (valid : InRange day) :
    bucketStart (.text (isoFormat day)) = some day := by
  have short : (isoFormat day).toList.take 10 = (isoFormat day).toList := by
    apply List.take_of_length_le
    simp [isoFormat, padded]
  rw [bucketStart, short, String.ofList_toList]
  exact fromIsoFormat_isoFormat valid

/-- The value of a bucket expression, by the bucket's first day. -/
def bucketValue (dialectName : String) (start : Int) : BucketValue :=
  if dialectName ∈ mysqlDialects then .date start else .text (isoFormat start)

theorem bucketStart_bucketValue (dialectName : String) {start : Int}
    (valid : InRange start) : bucketStart (bucketValue dialectName start) = some start := by
  rw [bucketValue]
  split
  · rfl
  · exact bucketStart_isoFormat valid

theorem bucketExpression_eq {dialectName : String} (known : dialectName ∈ dialects)
    {column : Stamp} (holds : Holds dialectName column) (granularity : TimeGranularity) :
    bucketExpression dialectName column granularity =
      .ok (some (bucketValue dialectName (timeBucket granularity column.day))) := by
  rw [bucketExpression, bucketValue]
  split
  · rename_i mysql
    rw [mysqlBucket_eq holds.isDate (holds.written mysql)]
    rfl
  · rename_i other
    have sqlite : dialectName = "sqlite" := by
      rcases List.mem_append.mp known with mysql | sqlite
      · exact absurd mysql other
      · exact List.mem_singleton.mp sqlite
    rw [if_pos sqlite, sqliteBucket_eq]

/-- The three definitions of a calendar bucket agree. -/
structure BucketsAgree (granularity : TimeGranularity) : Prop where
  /-- Only the days of the last bucket there is have no bounds in Python. -/
  bounded : ∀ day, InRange day → (bucketDates day granularity = none ↔
      sqliteBucket (midnight day) granularity = sqliteBucket (midnight lastDay) granularity)
  /-- The first day in Python is the one each database computes. -/
  starts : ∀ dialectName ∈ dialects, ∀ column, Holds dialectName column →
    ∃ value start, bucketExpression dialectName column granularity = .ok (some value) ∧
      bucketStart value = some start ∧
      ∀ bucket, bucketDates column.day granularity = some bucket → bucket.1 = start
  /-- A day lies in its bucket, and the days in it have the same one. -/
  partition : ∀ day, InRange day → ∀ bucket, bucketDates day granularity = some bucket →
    (bucket.1 ≤ day ∧ day < bucket.2) ∧
      ∀ other, InRange other → ((bucket.1 ≤ other ∧ other < bucket.2) ↔
        bucketDates other granularity = some bucket)
  /-- A range is within one bucket when its first and last day start the same one. -/
  within : ∀ first last, InRange first → InRange last → first ≤ last →
    ∀ inside, withinOneBucket (first, last + 1) granularity = some inside →
      (inside = true ↔ (bucketDates first granularity).map Prod.fst =
        (bucketDates last granularity).map Prod.fst)
  /-- The period of a bucket some row is in holds exactly the rows grouped into it. -/
  selected : ∀ dialectName ∈ dialects, ∀ row, Holds dialectName row →
    ∀ value, bucketExpression dialectName row granularity = .ok (some value) →
      ∀ (isTimezone : String → Bool) timezone,
        (selectedPeriod isTimezone timezone granularity value = none ↔
          isTimezone timezone = false ∨ bucketDates row.day granularity = none) ∧
        ∀ period, selectedPeriod isTimezone timezone granularity value = some period →
          ∀ column, Holds dialectName column → (period.holds column = true ↔
            bucketExpression dialectName column granularity = .ok (some value))

section Agreement

variable {granularity : TimeGranularity} {day : Int} {bucket : Int × Int}

theorem bucketDates_eq_some (valid : InRange day)
    (found : bucketDates day granularity = some bucket) :
    bucket.1 = timeBucket granularity day ∧ ∀ other, (bucket.1 ≤ other ∧ other < bucket.2) ↔
        timeBucket granularity other = timeBucket granularity day := by
  rcases bucketDates_spec granularity valid with ⟨-, unfound⟩ | ⟨-, after, dates, encloses⟩
  · rw [unfound] at found
    cases found
  · rw [dates] at found
    cases found
    exact ⟨rfl, encloses⟩

variable {other : Int}

theorem bucketDates_congr (valid : InRange day) (otherValid : InRange other)
    (same : timeBucket granularity other = timeBucket granularity day) :
    bucketDates other granularity = bucketDates day granularity := by
  rcases bucketDates_spec granularity valid with ⟨last, unfound⟩ | ⟨inner, after, dates, encloses⟩
  · rcases bucketDates_spec granularity otherValid with
      ⟨-, otherUnfound⟩ | ⟨otherInner, -⟩
    · rw [unfound, otherUnfound]
    · exact absurd (same.trans last) otherInner
  · rcases bucketDates_spec granularity otherValid with
      ⟨otherLast, -⟩ | ⟨-, otherAfter, otherDates, otherEncloses⟩
    · exact absurd (same.symm.trans otherLast) inner
    · rw [dates, otherDates, same]
      rw [same] at otherEncloses
      have started := (encloses day).mpr rfl
      have otherStarted := (otherEncloses day).mpr rfl
      have ended : otherAfter = after := by
        apply le_antisymm
        · by_contra longer
          have inside := (encloses after).mpr ((otherEncloses after).mp ⟨by omega, by omega⟩)
          exact absurd inside.2 (lt_irrefl after)
        · by_contra longer
          have inside := (otherEncloses otherAfter).mpr
            ((encloses otherAfter).mp ⟨by omega, by omega⟩)
          exact absurd inside.2 (lt_irrefl otherAfter)
      rw [ended]

theorem bucketDates_eq_none_iff (valid : InRange day) : bucketDates day granularity = none ↔
      timeBucket granularity day = timeBucket granularity lastDay := by
  rcases bucketDates_spec granularity valid with ⟨last, unfound⟩ | ⟨inner, after, dates, -⟩
  · exact ⟨fun _ => last, fun _ => unfound⟩
  · rw [dates]
    exact ⟨nofun, fun last => absurd last inner⟩

/-- Bounds are the same when the first days are. -/
theorem bucketDates_eq_iff (valid : InRange day) (otherValid : InRange other)
    (found : bucketDates day granularity = some bucket) :
    bucketDates other granularity = some bucket ↔
      timeBucket granularity other = timeBucket granularity day := by
  constructor
  · intro otherFound
    rw [← (bucketDates_eq_some otherValid otherFound).1, (bucketDates_eq_some valid found).1]
  · intro same
    rw [bucketDates_congr valid otherValid same, found]

theorem isoFormat_injective (valid : InRange day)
    (otherValid : InRange other) (same : isoFormat other = isoFormat day) :
    other = day := by
  have read := fromIsoFormat_isoFormat otherValid
  rw [same, fromIsoFormat_isoFormat valid] at read
  exact (Option.some.inj read).symm

theorem inRange_lastDay : InRange lastDay := by decide

theorem withinOneBucket_iff {first last : Int} (firstValid : InRange first)
    (lastValid : InRange last) (ordered : first ≤ last) {inside : Bool}
    (checked : withinOneBucket (first, last + 1) granularity = some inside) :
    inside = true ↔ (bucketDates first granularity).map Prod.fst =
      (bucketDates last granularity).map Prod.fst := by
  rcases Option.map_eq_some_iff.mp checked with ⟨bucket, found, decided⟩
  rcases bucketDates_eq_some firstValid found with ⟨start, encloses⟩
  have started := (encloses first).mpr rfl
  have ends : inside = true ↔ timeBucket granularity last = timeBucket granularity first := by
    rw [← decided, decide_eq_true_iff, ← encloses last]
    dsimp only
    omega
  rw [ends, found, Option.map_some, start]
  constructor
  · intro same
    rw [bucketDates_congr firstValid lastValid same, found, Option.map_some, start]
  · intro same
    rcases Option.map_eq_some_iff.mp same.symm with ⟨other, otherFound, otherStart⟩
    rw [← otherStart]
    exact (bucketDates_eq_some lastValid otherFound).1.symm

theorem selectedPeriod_eq (isTimezone : String → Bool) (timezone dialectName : String)
    {day : Int} (valid : InRange day) :
    selectedPeriod isTimezone timezone granularity
        (bucketValue dialectName (timeBucket granularity day)) =
      if isTimezone timezone = true then
        (bucketDates day granularity).map fun bucket =>
          ⟨bucket.1, midnight bucket.1, midnight bucket.2⟩
      else
        none := by
  have first := inRange_timeBucket granularity valid
  have sameBucket : bucketDates (timeBucket granularity day) granularity =
      bucketDates day granularity := by
    apply bucketDates_congr valid first
    rcases bucketBounds_spec granularity day with ⟨after, -, encloses⟩
    apply (encloses _).mp
    exact ⟨le_rfl, ((encloses day).mpr rfl).1.trans_lt ((encloses day).mpr rfl).2⟩
  show (bucketStart _).bind _ = _
  rw [bucketStart_bucketValue dialectName first, Option.bind_some]
  show (bucketDates _ granularity).bind _ = _
  rw [sameBucket]
  cases found : bucketDates day granularity with
  | none =>
    rw [Option.map_none, ite_self]
    rfl
  | some bucket =>
    rcases bucketDates_eq_some valid found with ⟨start, encloses⟩
    have inside := (encloses day).mpr rfl
    have ordered : bucket.1 < bucket.2 := inside.1.trans_lt inside.2
    rw [Option.bind_some, Option.map_some]
    show (businessDatetimeBounds _ _ _ _).bind _ = _
    rw [businessDatetimeBounds, ← start]
    by_cases zone : isTimezone timezone = true
    · rw [if_pos ⟨zone, ordered⟩, if_pos zone]
      rfl
    · rw [if_neg (fun both => zone both.1), if_neg zone]
      rfl

theorem holds_iff {start first after : Int} {column : Stamp} :
    SelectedPeriod.holds ⟨start, midnight first, midnight after⟩ column = true ↔
      first ≤ column.day ∧ column.day < after := by
  rw [SelectedPeriod.holds, Bool.and_eq_true, Bool.not_eq_true', not_before_midnight,
    ← Bool.not_eq_false, not_before_midnight, not_le]

variable {dialectName : String}

theorem bucketValue_inj {start : Int} (valid : InRange start) (otherValid : InRange other) :
    bucketValue dialectName other = bucketValue dialectName start ↔ other = start := by
  constructor
  · intro same
    have read := bucketStart_bucketValue dialectName otherValid
    rw [same, bucketStart_bucketValue dialectName valid] at read
    exact (Option.some.inj read).symm
  · intro same
    rw [same]

theorem selectedPeriod_selects (known : dialectName ∈ dialects)
    {row : Stamp} (holds : Holds dialectName row) {value : BucketValue}
    (grouped : bucketExpression dialectName row granularity = .ok (some value))
    (isTimezone : String → Bool) (timezone : String) :
    (selectedPeriod isTimezone timezone granularity value = none ↔
        isTimezone timezone = false ∨ bucketDates row.day granularity = none) ∧
      ∀ period, selectedPeriod isTimezone timezone granularity value = some period →
        ∀ column, Holds dialectName column → (period.holds column = true ↔
          bucketExpression dialectName column granularity = .ok (some value)) := by
  rw [bucketExpression_eq known holds] at grouped
  cases grouped
  have built := @selectedPeriod_eq granularity isTimezone timezone dialectName _ holds.isDate
  rw [built]
  constructor
  · cases isTimezone timezone <;> simp
  · intro period selected column columnHolds
    rw [Option.ite_none_right_eq_some, Option.map_eq_some_iff] at selected
    rcases selected with ⟨-, bucket, found, rfl⟩
    rw [holds_iff, (bucketDates_eq_some holds.isDate found).2,
      bucketExpression_eq known columnHolds, Except.ok.injEq, Option.some.injEq,
      bucketValue_inj (inRange_timeBucket granularity holds.isDate)
        (inRange_timeBucket granularity columnHolds.isDate)]

end Agreement

theorem bucketsAgree (granularity : TimeGranularity) : BucketsAgree granularity where
  bounded := by
    intro day valid
    rw [bucketDates_eq_none_iff valid, sqliteBucket_eq, sqliteBucket_eq]
    constructor
    · intro same
      exact congrArg isoFormat same
    · exact isoFormat_injective (inRange_timeBucket granularity inRange_lastDay)
        (inRange_timeBucket granularity valid)
  starts := by
    intro dialectName known column holds
    refine ⟨_, _, bucketExpression_eq known holds granularity,
      bucketStart_bucketValue dialectName (inRange_timeBucket granularity holds.isDate), ?_⟩
    intro bucket found
    exact (bucketDates_eq_some holds.isDate found).1
  partition := by
    intro day valid bucket found
    rcases bucketDates_eq_some valid found with ⟨-, encloses⟩
    constructor
    · exact (encloses day).mpr rfl
    · intro other otherValid
      rw [encloses other, bucketDates_eq_iff valid otherValid found]
  within := by
    intro first last firstValid lastValid ordered inside checked
    exact withinOneBucket_iff firstValid lastValid ordered checked
  selected := by
    intro dialectName known row holds value grouped isTimezone timezone
    exact selectedPeriod_selects known holds grouped isTimezone timezone

/-- The last day of May is in the second quarter. -/
example : sqliteBucket (midnight (CivilDate.mk 2024 5 31).number) .quarter = "2024-04-01" ∧
    mysqlBucket (midnight (CivilDate.mk 2024 5 31).number) .quarter =
      some (CivilDate.mk 2024 4 1).number := by decide

/-- Python has no bounds for the last month there is, which the databases group by, and
MySQL reads the year 50 as 2050. -/
theorem lastMonth_unbounded : ¬ (∀ granularity : TimeGranularity, ∀ day, InRange day →
      (bucketDates day granularity).map (isoFormat ∘ Prod.fst) =
          some (sqliteBucket (midnight day) granularity) ∧
        (bucketDates day granularity).map Prod.fst = mysqlBucket (midnight day) granularity) ∧
      bucketDates lastDay .month = none ∧
      sqliteBucket (midnight lastDay) .month = "9999-12-01" ∧
      mysqlBucket (midnight (CivilDate.mk 50 3 15).number) .month =
        some (CivilDate.mk 2050 3 1).number := by
  have unbounded : bucketDates lastDay .month = none := by decide
  refine ⟨?_, unbounded, by decide, by decide⟩
  intro agree
  have last := (agree .month lastDay inRange_lastDay).1
  rw [unbounded] at last
  cases last

end McpAssistant.BusinessQuery.DialectBuckets
