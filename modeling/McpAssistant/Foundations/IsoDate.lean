import McpAssistant.Foundations.Calendar

/-!
# Dates as ISO texts

A date is printed as its year, month and day.  A text is read as a date in any
of the ISO forms: with or without separators, by month or by week.
-/

namespace McpAssistant.Foundations.IsoDate

open Calendar

def digit (value : Nat) : Char :=
  Char.ofNat (48 + value % 10)

/-- The last digits of a number. -/
def padded : Nat → Nat → List Char
  | 0, _ => []
  | width + 1, value => padded width (value / 10) ++ [digit value]

def readDigit (letter : Char) : Option Nat :=
  if '0' ≤ letter ∧ letter ≤ '9' then some (letter.toNat - 48) else none

def readDigits (letters : List Char) : Option Nat :=
  letters.foldlM (fun value letter => (readDigit letter).map (value * 10 + ·)) 0

theorem readDigit_digit (value : Nat) : readDigit (digit value) = some (value % 10) := by
  have small : value % 10 < 10 := Nat.mod_lt _ (by decide)
  rw [digit]
  generalize value % 10 = last at *
  interval_cases last <;> rfl

theorem readDigits_append {letters : List Char} {value : Nat} {letter : Char}
    (read : readDigits letters = some value) :
    readDigits (letters ++ [letter]) = (readDigit letter).map (value * 10 + ·) := by
  rw [readDigits] at read ⊢
  rw [List.foldlM_append, read]
  simp

theorem readDigits_padded (width value : Nat) :
    readDigits (padded width value) = some (value % 10 ^ width) := by
  induction width generalizing value with
  | zero => rw [pow_zero, Nat.mod_one]; rfl
  | succ width ih =>
    rw [padded, readDigits_append (ih (value / 10)), readDigit_digit, Option.map_some, pow_succ']
    congr 1
    have split := Nat.mod_mul (x := value) (a := 10) (b := 10 ^ width)
    omega

/-- The dates there are: the days of the years 1 to 9999. -/
def lastDay : Int := 3652059

def InRange (number : Int) : Prop := 1 ≤ number ∧ number ≤ lastDay

instance (number : Int) : Decidable (InRange number) :=
  inferInstanceAs (Decidable (_ ∧ _))

def isoFormat (number : Int) : String :=
  let date := civilDate number
  String.ofList (padded 4 date.year.toNat ++ ['-'] ++ padded 2 date.month.toNat ++
    ['-'] ++ padded 2 date.day.toNat)

def dayOfMonth (year month day : List Char) : Option Int := do
  let year ← readDigits year
  let month ← readDigits month
  let day ← readDigits day
  if 1 ≤ year ∧ year ≤ 9999 ∧ 1 ≤ month ∧ month ≤ 12 ∧ 1 ≤ day ∧
      (day : Int) ≤ daysInMonth year month then
    some (CivilDate.mk year month day).number
  else
    none

def firstMonday (year : Int) : Int :=
  let first := (CivilDate.mk year 1 1).number
  let monday := first - weekday first
  if 3 < weekday first then monday + 7 else monday

def dayOfWeek (year week day : List Char) : Option Int := do
  let year ← readDigits year
  let week ← readDigits week
  let day ← readDigits day
  let first := (CivilDate.mk year 1 1).number
  let long := weekday first = 3 ∨ weekday first = 2 ∧ isLeap year = true
  let number := firstMonday year + (week - 1 : Int) * 7 + (day - 1 : Int)
  if 1 ≤ year ∧ 1 ≤ week ∧ (week ≤ 52 ∨ week = 53 ∧ long) ∧ 1 ≤ day ∧ day ≤ 7 ∧ InRange number then
    some number
  else
    none

def fromIsoFormat (text : String) : Option Int :=
  match text.toList with
  | [a, b, c, d, '-', 'W', e, f, '-', g] => dayOfWeek [a, b, c, d] [e, f] [g]
  | [a, b, c, d, '-', e, f, '-', g, h] => dayOfMonth [a, b, c, d] [e, f] [g, h]
  | [a, b, c, d, '-', 'W', e, f] => dayOfWeek [a, b, c, d] [e, f] ['1']
  | [a, b, c, d, 'W', e, f, g] => dayOfWeek [a, b, c, d] [e, f] [g]
  | [a, b, c, d, e, f, g, h] => dayOfMonth [a, b, c, d] [e, f] [g, h]
  | [a, b, c, d, 'W', e, f] => dayOfWeek [a, b, c, d] [e, f] ['1']
  | _ => none

variable {number : Int}

theorem civilDate_inRange (valid : InRange number) :
    1 ≤ (civilDate number).year ∧ (civilDate number).year ≤ 9999 := by
  rcases valid with ⟨low, high⟩
  rw [lastDay] at high
  have started : monthStart 12 ≤ number := by
    have first : monthStart 12 = 1 := by decide
    omega
  have ended : number < monthStart 120000 := by
    have after : monthStart 120000 = 3652060 := by decide
    omega
  rw [monthStart_le_iff, monthIndex] at started
  rw [lt_monthStart_iff, monthIndex] at ended
  have month := civilDate_month number
  omega

theorem daysInMonth_eq {year month : Int} (first : 1 ≤ month) (last : month ≤ 12) :
    daysBeforeMonth year month + daysInMonth year month = daysThroughMonth year month := by
  rw [daysThroughMonth, daysBeforeMonth_eq, daysBeforeMonth_eq, daysInMonth, leapDay]
  by_cases leap : isLeap year = true
  · interval_cases month <;> simp [daysBeforeMonthTable, leap]
  · interval_cases month <;> simp [daysBeforeMonthTable, leap]

theorem civilDate_day (number : Int) : 1 ≤ (civilDate number).day ∧ (civilDate number).day ≤
      daysInMonth (civilDate number).year (civilDate number).month := by
  have month := civilDate_month number
  rcases monthIndex_spec number with ⟨started, ended⟩
  rw [monthIndex, monthStart_of_year month.1 month.2] at started
  rw [monthIndex, monthStart_next month.1 month.2] at ended
  have counted := number_civilDate number
  rw [CivilDate.number] at counted
  have length := @daysInMonth_eq (civilDate number).year _ month.1 month.2
  omega

theorem dayOfMonth_padded {year month day : Nat}
    (valid : 1 ≤ year ∧ year ≤ 9999 ∧ 1 ≤ month ∧ month ≤ 12 ∧ 1 ≤ day ∧
      (day : Int) ≤ daysInMonth year month) :
    dayOfMonth (padded 4 year) (padded 2 month) (padded 2 day) =
      some (CivilDate.mk year month day).number := by
  have short : daysInMonth year month ≤ 31 := by
    rw [daysInMonth]
    split
    · split
      · decide
      · decide
    · split
      · decide
      · decide
  have sameYear : year % 10 ^ 4 = year := Nat.mod_eq_of_lt (by omega)
  have sameMonth : month % 10 ^ 2 = month := Nat.mod_eq_of_lt (by omega)
  have sameDay : day % 10 ^ 2 = day := Nat.mod_eq_of_lt (by omega)
  rw [dayOfMonth, readDigits_padded, readDigits_padded, readDigits_padded,
    sameYear, sameMonth, sameDay]
  exact if_pos valid

theorem digit_ne_week (value : Nat) : digit value ≠ 'W' := by
  have small : value % 10 < 10 := Nat.mod_lt _ (by decide)
  rw [digit]
  generalize value % 10 = last at *
  interval_cases last <;> decide

theorem fromIsoFormat_months {a b c d e f g h : Char} (month : e ≠ 'W') :
    fromIsoFormat (String.ofList [a, b, c, d, '-', e, f, '-', g, h]) =
      dayOfMonth [a, b, c, d] [e, f] [g, h] := by
  rw [fromIsoFormat, String.toList_ofList]
  split
  · rename_i same
    cases same
    exact absurd rfl month
  · rename_i same
    cases same
    rfl
  · rename_i same
    cases same
  · rename_i same
    cases same
  · rename_i same
    cases same
  · rename_i same
    cases same
  · rename_i other _ _ _ _
    exact absurd rfl (other a b c d e f g h)

/-- A date reads back from what it prints as. -/
theorem fromIsoFormat_isoFormat (valid : InRange number) :
    fromIsoFormat (isoFormat number) = some number := by
  have years := civilDate_inRange valid
  have months := civilDate_month number
  have days := civilDate_day number
  have counted := number_civilDate number
  rw [isoFormat]
  generalize civilDate number = date at *
  rcases date with ⟨year, month, day⟩
  dsimp only at *
  lift year to ℕ using by omega
  lift month to ℕ using by omega
  lift day to ℕ using by omega
  have printed := @dayOfMonth_padded year month day
    ⟨by omega, by omega, by omega, by omega, by omega, days.2⟩
  rw [← counted, ← printed]
  exact fromIsoFormat_months (digit_ne_week (month / 10))

theorem inRange_number {year month day : Int} (years : 1 ≤ year ∧ year ≤ 9999)
    (months : 1 ≤ month ∧ month ≤ 12)
    (days : 1 ≤ day ∧ day ≤ daysInMonth year month) :
    InRange (CivilDate.mk year month day).number := by
  have started := monthStart_strictMono.monotone (show 12 ≤ year * 12 + (month - 1) by omega)
  have ended := monthStart_strictMono.monotone (show year * 12 + (month - 1) + 1 ≤ 120000 by omega)
  rw [monthStart_of_year months.1 months.2] at started
  rw [monthStart_next months.1 months.2] at ended
  have first : monthStart 12 = 1 := by decide
  have after : monthStart 120000 = 3652060 := by decide
  have length := @daysInMonth_eq year month months.1 months.2
  rw [InRange, lastDay, CivilDate.number]
  dsimp only
  omega

theorem inRange_of_dayOfMonth {year month day : List Char}
    (read : dayOfMonth year month day = some number) : InRange number := by
  rcases Option.bind_eq_some_iff.mp read with ⟨readYear, _, rest⟩
  rcases Option.bind_eq_some_iff.mp rest with ⟨readMonth, _, rest⟩
  rcases Option.bind_eq_some_iff.mp rest with ⟨readDay, _, result⟩
  rw [Option.ite_none_right_eq_some] at result
  rcases result with ⟨valid, same⟩
  cases same
  apply inRange_number
  · omega
  · omega
  · omega

theorem inRange_of_dayOfWeek {year week day : List Char}
    (read : dayOfWeek year week day = some number) : InRange number := by
  rcases Option.bind_eq_some_iff.mp read with ⟨readYear, _, rest⟩
  rcases Option.bind_eq_some_iff.mp rest with ⟨readWeek, _, rest⟩
  rcases Option.bind_eq_some_iff.mp rest with ⟨readDay, _, result⟩
  rw [Option.ite_none_right_eq_some] at result
  rcases result with ⟨valid, same⟩
  cases same
  exact valid.2.2.2.2.2

theorem inRange_of_fromIsoFormat {text : String}
    (read : fromIsoFormat text = some number) : InRange number := by
  unfold fromIsoFormat at read
  split at read
  · exact inRange_of_dayOfWeek read
  · exact inRange_of_dayOfMonth read
  · exact inRange_of_dayOfWeek read
  · exact inRange_of_dayOfWeek read
  · exact inRange_of_dayOfMonth read
  · exact inRange_of_dayOfWeek read
  · cases read

example : fromIsoFormat "2024-W10-7" = some 738955 := by decide

end McpAssistant.Foundations.IsoDate
