import Mathlib.Order.SuccPred.IntervalSucc
import Mathlib.Algebra.Order.SuccPred
import Mathlib.Tactic.IntervalCases
import Mathlib.Tactic.Linarith
import Mathlib.Data.Int.ConditionallyCompleteOrder

/-!
# The calendar

A date is the number of its day, counted from 1 January of the year 1, in the
Gregorian calendar extended to all years.  Months are numbered through the
years; a day lies in the one month whose first day and whose successor's first
day enclose it.
-/

namespace McpAssistant.Foundations.Calendar

def isLeap (year : Int) : Bool :=
  year % 4 = 0 && (year % 100 ≠ 0 || year % 400 = 0)

def daysBeforeYear (year : Int) : Int :=
  (year - 1) * 365 + (year - 1) / 4 - (year - 1) / 100 + (year - 1) / 400

/-- The days before a month of a year that is not a leap year. -/
def daysBeforeMonthTable (month : Int) : Int :=
  if month ≤ 1 then 0
  else if month = 2 then 31
  else if month = 3 then 59
  else if month = 4 then 90
  else if month = 5 then 120
  else if month = 6 then 151
  else if month = 7 then 181
  else if month = 8 then 212
  else if month = 9 then 243
  else if month = 10 then 273
  else if month = 11 then 304
  else 334

def daysBeforeMonth (year month : Int) : Int :=
  daysBeforeMonthTable month + if 2 < month ∧ isLeap year then 1 else 0

def daysInMonth (year month : Int) : Int :=
  if month = 2 then (if isLeap year then 29 else 28)
  else if month = 4 ∨ month = 6 ∨ month = 9 ∨ month = 11 then 30
  else 31

structure CivilDate where
  year : Int
  month : Int
  day : Int
deriving DecidableEq

def CivilDate.number (date : CivilDate) : Int :=
  daysBeforeYear date.year + daysBeforeMonth date.year date.month + date.day

def monthOfDay (year dayOfYear : Int) : Int :=
  let estimate := (dayOfYear + 50) / 32
  if daysBeforeMonth year estimate > dayOfYear then estimate - 1 else estimate

/-- The calendar date of a day number: cycles of 400, 100, 4 and 1 years are
taken off in turn. -/
def civilDate (number : Int) : CivilDate :=
  let cycles400 := (number - 1) / 146097
  let in400 := (number - 1) % 146097
  let cycles100 := in400 / 36524
  let in100 := in400 % 36524
  let cycles4 := in100 / 1461
  let in4 := in100 % 1461
  let years := in4 / 365
  let dayOfYear := in4 % 365
  let year := cycles400 * 400 + cycles100 * 100 + cycles4 * 4 + years + 1
  -- the last day of a leap year closes its cycle
  if years = 4 ∨ cycles100 = 4 then
    ⟨year - 1, 12, 31⟩
  else
    let month := monthOfDay year dayOfYear
    ⟨year, month, dayOfYear - daysBeforeMonth year month + 1⟩

/-- The day of the week, Monday being 0. -/
def weekday (number : Int) : Int :=
  (number + 6) % 7

/-- The first day of a month, the months being numbered through the years. -/
def monthStart (index : Int) : Int :=
  (CivilDate.mk (index / 12) (index % 12 + 1) 1).number

/-- The month a day lies in. -/
def monthIndex (number : Int) : Int :=
  (civilDate number).year * 12 + ((civilDate number).month - 1)

def leapDay (year : Int) : Int :=
  if isLeap year then 1 else 0

theorem leapDay_eq_or (year : Int) : leapDay year = 0 ∨ leapDay year = 1 := by
  rw [leapDay]
  split
  · exact .inr rfl
  · exact .inl rfl

theorem daysBeforeYear_succ (year : Int) :
    daysBeforeYear (year + 1) = daysBeforeYear year + 365 + leapDay year := by
  have leap : leapDay year =
      if year % 4 = 0 ∧ (year % 100 ≠ 0 ∨ year % 400 = 0) then 1 else 0 := by
    simp [leapDay, isLeap]
  rw [leap, daysBeforeYear, daysBeforeYear]
  split
  · omega
  · omega

theorem daysBeforeMonth_eq (year month : Int) : daysBeforeMonth year month =
      daysBeforeMonthTable month + if 2 < month then leapDay year else 0 := by
  rw [daysBeforeMonth, leapDay]
  by_cases late : 2 < month
  · simp [late]
  · simp [late]

/-- A month is followed by the next, December by January. -/
theorem monthStart_succ (index : Int) : monthStart index + 28 ≤ monthStart (index + 1) := by
  have positive : 0 ≤ index % 12 ∧ index % 12 < 12 := by omega
  have leap := leapDay_eq_or (index / 12)
  simp only [monthStart, CivilDate.number, daysBeforeMonth_eq]
  by_cases december : index % 12 = 11
  · have nextYear : (index + 1) / 12 = index / 12 + 1 := by omega
    have january : (index + 1) % 12 = 0 := by omega
    rw [december, nextYear, january, daysBeforeYear_succ]
    simp only [daysBeforeMonthTable]
    norm_num
    omega
  · have sameYear : (index + 1) / 12 = index / 12 := by omega
    have nextMonth : (index + 1) % 12 = index % 12 + 1 := by omega
    rw [sameYear, nextMonth]
    generalize index % 12 = month at *
    generalize leapDay (index / 12) = extra at *
    obtain ⟨low, high⟩ := positive
    interval_cases month <;> simp [daysBeforeMonthTable] at * <;> omega

theorem monthStart_strictMono : StrictMono monthStart := by
  apply strictMono_int_of_lt_succ
  intro index
  have step := monthStart_succ index
  omega

/-- The first day of the next month, within a year. -/
def daysThroughMonth (year month : Int) : Int :=
  if month = 12 then 365 + leapDay year else daysBeforeMonth year (month + 1)

theorem daysBeforeMonth_le {year month : Int} (first : 1 ≤ month)
    (last : month ≤ 12) : daysBeforeMonth year month ≤ 32 * month - 18 := by
  have leap := leapDay_eq_or year
  rw [daysBeforeMonth_eq]
  generalize leapDay year = extra at *
  interval_cases month <;> simp [daysBeforeMonthTable] <;> omega

theorem le_daysBeforeMonth {year month : Int} (first : 1 ≤ month)
    (last : month ≤ 11) : 32 * month - 18 ≤ daysBeforeMonth year (month + 1) := by
  have leap := leapDay_eq_or year
  rw [daysBeforeMonth_eq]
  generalize leapDay year = extra at *
  interval_cases month <;> simp [daysBeforeMonthTable] <;> omega

theorem daysBeforeMonth_one (year : Int) : daysBeforeMonth year 1 = 0 := by
  simp [daysBeforeMonth_eq, daysBeforeMonthTable]

theorem monthOfDay_spec {year dayOfYear : Int} (low : 0 ≤ dayOfYear) (high : dayOfYear ≤ 364) :
    1 ≤ monthOfDay year dayOfYear ∧ monthOfDay year dayOfYear ≤ 12 ∧
      daysBeforeMonth year (monthOfDay year dayOfYear) ≤ dayOfYear ∧
      dayOfYear < daysThroughMonth year (monthOfDay year dayOfYear) := by
  have first : 1 ≤ (dayOfYear + 50) / 32 := by omega
  have last : (dayOfYear + 50) / 32 ≤ 12 := by omega
  have inside : 32 * ((dayOfYear + 50) / 32) ≤ dayOfYear + 50 ∧
      dayOfYear + 50 < 32 * ((dayOfYear + 50) / 32) + 32 := by omega
  simp only [monthOfDay]
  generalize (dayOfYear + 50) / 32 = estimate at *
  split
  · rename_i past
    have notFirst : estimate ≠ 1 := by
      rintro rfl
      rw [daysBeforeMonth_one] at past
      omega
    have lower := @daysBeforeMonth_le year (estimate - 1) (by omega) (by omega)
    refine ⟨by omega, by omega, by omega, ?_⟩
    rw [daysThroughMonth, if_neg (by omega), sub_add_cancel]
    exact past
  · rename_i reached
    refine ⟨first, last, by omega, ?_⟩
    rw [daysThroughMonth]
    split
    · have leap := leapDay_eq_or year
      omega
    · have upper := @le_daysBeforeMonth year estimate first (by omega)
      omega

theorem monthStart_of_year {year month : Int} (first : 1 ≤ month) (last : month ≤ 12) :
    monthStart (year * 12 + (month - 1)) =
      daysBeforeYear year + daysBeforeMonth year month + 1 := by
  have sameYear : (year * 12 + (month - 1)) / 12 = year := by omega
  have sameMonth : (year * 12 + (month - 1)) % 12 + 1 = month := by omega
  rw [monthStart, sameYear, sameMonth]
  rfl

theorem monthStart_next {year month : Int} (first : 1 ≤ month) (last : month ≤ 12) :
    monthStart (year * 12 + (month - 1) + 1) =
      daysBeforeYear year + daysThroughMonth year month + 1 := by
  rw [daysThroughMonth]
  split
  · rename_i december
    have index : year * 12 + (month - 1) + 1 = (year + 1) * 12 + (1 - 1) := by
      omega
    rw [index, monthStart_of_year le_rfl (by omega), daysBeforeYear_succ, daysBeforeMonth_one]
    omega
  · have index : year * 12 + (month - 1) + 1 = year * 12 + (month + 1 - 1) := by omega
    rw [index, monthStart_of_year (by omega) (by omega)]

theorem leapDay_eq (year : Int) : leapDay year =
    if year % 4 = 0 ∧ (year % 100 ≠ 0 ∨ year % 400 = 0) then 1 else 0 := by
  simp [leapDay, isLeap]

theorem number_of_last {c400 c100 c4 years rest : Int}
    (last : years = 4 ∨ c100 = 4) (ranges : 0 ≤ c100 ∧ 0 ≤ c4 ∧ 0 ≤ years ∧
      0 ≤ rest ∧ c100 * 36524 + c4 * 1461 + years * 365 + rest < 146097 ∧
      c4 * 1461 + years * 365 + rest < 36524 ∧ years * 365 + rest < 1461) :
    c400 * 146097 + c100 * 36524 + c4 * 1461 + years * 365 + rest =
        daysBeforeYear (c400 * 400 + c100 * 100 + c4 * 4 + years) + 365 ∧
      leapDay (c400 * 400 + c100 * 100 + c4 * 4 + years) = 1 := by
  rw [leapDay_eq, daysBeforeYear]
  obtain ⟨low100, low4, lowYears, lowRest, in400, in100, in4⟩ := ranges
  rcases last with rfl | rfl
  · have noRest : rest = 0 := by omega
    have few4 : c4 ≤ 23 := by omega
    have few100 : c100 ≤ 3 := by omega
    subst noRest
    constructor
    · omega
    · rw [if_pos (by omega)]
  · have none4 : c4 = 0 := by omega
    have noYears : years = 0 := by omega
    have noRest : rest = 0 := by omega
    subst none4 noYears noRest
    constructor
    · omega
    · rw [if_pos (by omega)]

theorem number_of_other {c400 c100 c4 years rest : Int}
    (other : ¬(years = 4 ∨ c100 = 4)) (ranges : 0 ≤ c100 ∧ 0 ≤ c4 ∧ 0 ≤ years ∧
      0 ≤ rest ∧ c100 * 36524 + c4 * 1461 + years * 365 + rest < 146097 ∧
      c4 * 1461 + years * 365 + rest < 36524 ∧ years * 365 + rest < 1461) :
    c400 * 146097 + c100 * 36524 + c4 * 1461 + years * 365 + rest =
      daysBeforeYear (c400 * 400 + c100 * 100 + c4 * 4 + years + 1) + rest := by
  rw [daysBeforeYear]
  obtain ⟨low100, low4, lowYears, lowRest, in400, in100, in4⟩ := ranges
  have few4 : c4 ≤ 24 := by omega
  have few100 : c100 ≤ 3 := by omega
  have fewYears : years ≤ 3 := by omega
  omega

theorem cycles_spec (number : Int) : (number - 1 = (number - 1) / 146097 * 146097 +
      (number - 1) % 146097 / 36524 * 36524 +
      (number - 1) % 146097 % 36524 / 1461 * 1461 +
      (number - 1) % 146097 % 36524 % 1461 / 365 * 365 +
      (number - 1) % 146097 % 36524 % 1461 % 365) ∧
    (0 ≤ (number - 1) % 146097 / 36524 ∧ 0 ≤ (number - 1) % 146097 % 36524 / 1461 ∧
      0 ≤ (number - 1) % 146097 % 36524 % 1461 / 365 ∧
      0 ≤ (number - 1) % 146097 % 36524 % 1461 % 365 ∧
      (number - 1) % 146097 / 36524 * 36524 + (number - 1) % 146097 % 36524 / 1461 * 1461 +
        (number - 1) % 146097 % 36524 % 1461 / 365 * 365 +
        (number - 1) % 146097 % 36524 % 1461 % 365 < 146097 ∧
      (number - 1) % 146097 % 36524 / 1461 * 1461 +
        (number - 1) % 146097 % 36524 % 1461 / 365 * 365 +
        (number - 1) % 146097 % 36524 % 1461 % 365 < 36524 ∧
      (number - 1) % 146097 % 36524 % 1461 / 365 * 365 +
        (number - 1) % 146097 % 36524 % 1461 % 365 < 1461) := by
  constructor
  · omega
  · omega

/-- A day lies between the first day of its month and the first of the next. -/
theorem monthIndex_spec (number : Int) : monthStart (monthIndex number) ≤ number ∧
      number < monthStart (monthIndex number + 1) := by
  obtain ⟨parts, ranges⟩ := cycles_spec number
  have small : (number - 1) % 146097 % 36524 % 1461 % 365 ≤ 364 := by omega
  simp only [monthIndex, civilDate]
  generalize (number - 1) / 146097 = c400 at *
  generalize (number - 1) % 146097 / 36524 = c100 at *
  generalize (number - 1) % 146097 % 36524 / 1461 = c4 at *
  generalize (number - 1) % 146097 % 36524 % 1461 / 365 = years at *
  generalize (number - 1) % 146097 % 36524 % 1461 % 365 = rest at *
  split
  · rename_i last
    obtain ⟨isLast, leap⟩ := @number_of_last c400 c100 c4 years rest last ranges
    rw [← parts] at isLast
    simp only [add_sub_cancel_right]
    rw [monthStart_of_year (by omega) le_rfl, monthStart_next (by omega) le_rfl,
      daysThroughMonth, if_pos rfl, daysBeforeMonth_eq, leap]
    simp only [daysBeforeMonthTable]
    norm_num
    omega
  · rename_i other
    have isOther := @number_of_other c400 c100 c4 years rest other ranges
    rw [← parts] at isOther
    obtain ⟨first, last, lower, upper⟩ := @monthOfDay_spec
      (c400 * 400 + c100 * 100 + c4 * 4 + years + 1) rest (by omega) small
    dsimp only
    rw [monthStart_of_year first last, monthStart_next first last]
    omega

theorem number_civilDate (number : Int) : (civilDate number).number = number := by
  obtain ⟨parts, ranges⟩ := cycles_spec number
  simp only [civilDate]
  generalize (number - 1) / 146097 = c400 at *
  generalize (number - 1) % 146097 / 36524 = c100 at *
  generalize (number - 1) % 146097 % 36524 / 1461 = c4 at *
  generalize (number - 1) % 146097 % 36524 % 1461 / 365 = years at *
  generalize (number - 1) % 146097 % 36524 % 1461 % 365 = rest at *
  split
  · rename_i last
    have isLast := @number_of_last c400 c100 c4 years rest last ranges
    rw [← parts] at isLast
    rw [CivilDate.number, daysBeforeMonth_eq]
    dsimp only
    rw [add_sub_cancel_right, isLast.2]
    simp only [daysBeforeMonthTable]
    norm_num
    omega
  · rename_i other
    have isOther := @number_of_other c400 c100 c4 years rest other ranges
    rw [← parts] at isOther
    rw [CivilDate.number]
    dsimp only
    omega

theorem civilDate_month (number : Int) :
    1 ≤ (civilDate number).month ∧ (civilDate number).month ≤ 12 := by
  simp only [civilDate]
  split
  · exact ⟨by norm_num, le_rfl⟩
  · have spec := @monthOfDay_spec
      ((number - 1) / 146097 * 400 + (number - 1) % 146097 / 36524 * 100 +
        (number - 1) % 146097 % 36524 / 1461 * 4 +
        (number - 1) % 146097 % 36524 % 1461 / 365 + 1)
      ((number - 1) % 146097 % 36524 % 1461 % 365) (by omega) (by omega)
    exact ⟨spec.1, spec.2.1⟩

theorem number_eq_monthStart {year month : Int} (first : 1 ≤ month) (last : month ≤ 12) :
    (CivilDate.mk year month 1).number = monthStart (year * 12 + (month - 1)) := by
  rw [monthStart_of_year first last]
  rfl

/-- The months partition the days. -/
theorem monthStart_le_iff {index number : Int} :
    monthStart index ≤ number ↔ index ≤ monthIndex number := by
  obtain ⟨lower, upper⟩ := monthIndex_spec number
  constructor
  · intro started
    by_contra later
    have next := monthStart_strictMono.monotone (show monthIndex number + 1 ≤ index by omega)
    omega
  · intro earlier
    exact (monthStart_strictMono.monotone earlier).trans lower

theorem lt_monthStart_iff {index number : Int} :
    number < monthStart index ↔ monthIndex number < index := by
  rw [← not_le, monthStart_le_iff, not_le]

@[simp] theorem monthIndex_monthStart (index : Int) : monthIndex (monthStart index) = index := by
  apply le_antisymm
  · by_contra later
    have next := monthStart_le_iff.mpr (show index + 1 ≤ monthIndex (monthStart index) by omega)
    have step := monthStart_strictMono (show index < index + 1 by omega)
    omega
  · exact monthStart_le_iff.mp le_rfl

end McpAssistant.Foundations.Calendar
