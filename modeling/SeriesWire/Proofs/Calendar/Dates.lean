import SeriesWire.Calendar.Date
import SeriesWire.Proofs.Calendar.Months

/-! Civil dates name the days of the calendar.
Every day has exactly one date, and the months that the dates are counted in have the lengths of the
Gregorian calendar. The weekdays of dates, told by the year and the day of the year, run on from day
to day.
-/

namespace SeriesWire

namespace Calendar

-----------------------------------------------------------------------------------------
-- The lengths of months
-----------------------------------------------------------------------------------------

/-- The days of a month, counted from January as one. -/
def daysIn (year : Int) (month : Nat) : Nat :=
  if month = 2 then
    if isLeapYear year then 29 else 28
  else if month = 4 ∨ month = 6 ∨ month = 9 ∨ month = 11 then 30
  else 31

/-- Every month has four weeks. -/
theorem le_daysIn (year : Int) (month : Nat) : 28 ≤ daysIn year month := by
  unfold daysIn
  split
  · split <;> decide
  · split <;> decide

/-- From one month of a year to the next it is as many days as the month has. -/
theorem daysBefore_succ (year : Int) {month : Nat} (h : month < 11)
    : daysBefore (month + 1) + (if 2 ≤ month + 1 ∧ isLeapYear year then 1 else 0)
      = daysBefore month + (if 2 ≤ month ∧ isLeapYear year then 1 else 0)
        + daysIn year (month + 1) := by
  have all : ∀ leap : Bool, ∀ month < 11,
      daysBefore (month + 1) + (if 2 ≤ month + 1 ∧ leap then 1 else 0)
        = daysBefore month + (if 2 ≤ month ∧ leap then 1 else 0)
          + (if month + 1 = 2 then if leap then 29 else 28
            else if month + 1 = 4 ∨ month + 1 = 6 ∨ month + 1 = 9 ∨ month + 1 = 11 then 30
            else 31 : Nat) := by
    decide
  exact all (isLeapYear year) month h

/-- A month is as long as the rules of the calendar say. -/
theorem monthLength_eq_daysIn (year : Int) {month : Nat} (h : month < 12)
    : monthLength (12 * year + month) = daysIn year (month + 1) := by
  rw [monthLength, monthStart_eq year h]
  by_cases last : month = 11
  · have next : (12 * year + month + 1 : Int) = 12 * (year + 1) := by omega
    have december : daysIn year (11 + 1) = 31 := rfl
    have before : daysBefore 11 = 334 := rfl
    rw [next, monthStart_january, yearStart_succ, last, december, before]
    cases isLeapYear year with
    | false =>
        simp only [Bool.false_eq_true, and_false, if_false]
        omega
    | true =>
        simp only [Nat.reduceLeDiff, and_self, if_true]
        omega
  · have next : (12 * year + month + 1 : Int) = 12 * year + (month + 1 : Nat) := by omega
    have longer := daysBefore_succ year (show month < 11 by omega)
    rw [next, monthStart_eq year (by omega)]
    omega

end Calendar

open Calendar

namespace Date

-----------------------------------------------------------------------------------------
-- Dates and days
-----------------------------------------------------------------------------------------

/-- A date of the calendar, in any year. -/
structure Valid (date : Date) : Prop where
  month : 1 ≤ date.month ∧ date.month ≤ 12
  day : 1 ≤ date.day ∧ date.day ≤ daysIn date.year date.month

variable {date : Date}

/-- The index of a month by its place in the year, with January as zero. -/
theorem monthIndex_eq (least : 1 ≤ date.month)
    : date.monthIndex = 12 * date.year + (date.month - 1 : Nat) := by
  rw [monthIndex]
  omega

/-- The month of a date is as long as the calendar's month with its index. -/
theorem monthLength_monthIndex (month : 1 ≤ date.month ∧ date.month ≤ 12)
    : monthLength date.monthIndex = daysIn date.year date.month := by
  have same : date.month - 1 + 1 = date.month := by omega
  rw [monthIndex_eq month.1, monthLength_eq_daysIn date.year (by omega), same]

/-- A date lies in its month. -/
theorem monthOf_dayNumber (valid : date.Valid)
    : monthOf date.dayNumber = date.monthIndex := by
  have long := monthLength_monthIndex valid.month
  obtain ⟨least, greatest⟩ := valid.day
  rw [monthLength] at long
  apply monthOf_eq
  · rw [dayNumber]
    omega
  · rw [dayNumber]
    omega

/-- The day of the month counts from the day that the month starts with. -/
theorem dayNumber_sub_monthStart (date : Date)
    : date.dayNumber - monthStart date.monthIndex = date.day - 1 := by
  rw [dayNumber]
  omega

/-- No two dates name one day. -/
theorem ofDayNumber_dayNumber (valid : date.Valid)
    : ofDayNumber date.dayNumber = date := by
  have place := dayNumber_sub_monthStart date
  have found := monthOf_dayNumber valid
  obtain ⟨year, month, day⟩ := date
  obtain ⟨⟨first, last⟩, least, -⟩ := valid
  simp only [ofDayNumber, found, place, mk.injEq]
  simp only [monthIndex] at *
  omega

/-- Every day has a date. -/
theorem valid_ofDayNumber (day : Int)
    : (ofDayNumber day).Valid ∧ (ofDayNumber day).dayNumber = day := by
  obtain ⟨begun, unended⟩ := monthStart_monthOf day
  have index : (ofDayNumber day).monthIndex = monthOf day := by
    simp only [monthIndex, ofDayNumber]
    omega
  have month : 1 ≤ (ofDayNumber day).month ∧ (ofDayNumber day).month ≤ 12 := by
    simp only [ofDayNumber]
    omega
  have long := monthLength_monthIndex month
  rw [index, monthLength] at long
  have place : ((ofDayNumber day).day : Int) = day - monthStart (monthOf day) + 1 := by
    simp only [ofDayNumber]
    omega
  refine ⟨⟨month, ?_, ?_⟩, ?_⟩
  · omega
  · omega
  · rw [dayNumber, index]
    omega

/-- The date of a day is the one valid date that names it. -/
theorem ofDayNumber_eq_iff {day : Int}
    : ofDayNumber day = date ↔ date.Valid ∧ date.dayNumber = day := by
  constructor
  · rintro rfl
    exact valid_ofDayNumber day
  · rintro ⟨valid, rfl⟩
    exact ofDayNumber_dayNumber valid

theorem dayNumber_of_first (first : date.day = 1)
    : date.dayNumber = monthStart date.monthIndex := by
  have place := date.dayNumber_sub_monthStart
  omega

/-- Every month has a first day. -/
theorem exists_first (index : Int)
    : ∃ date : Date, date.Valid ∧ date.day = 1 ∧ date.monthIndex = index := by
  obtain ⟨valid, named⟩ := valid_ofDayNumber (monthStart index)
  have month := monthOf_dayNumber valid
  rw [named, monthOf_monthStart] at month
  have place := (ofDayNumber (monthStart index)).dayNumber_sub_monthStart
  rw [named, ← month] at place
  exact ⟨_, valid, by omega, month.symm⟩

-----------------------------------------------------------------------------------------
-- Weekdays
-----------------------------------------------------------------------------------------

/-- A date lies as many days behind the start of its year as its place in the year says. -/
theorem dayNumber_eq_dayOfYear (valid : date.Valid)
    : date.dayNumber = yearStart date.year + date.dayOfYear - 1 := by
  obtain ⟨⟨least, greatest⟩, -⟩ := valid
  have march : 2 ≤ date.month - 1 ↔ 2 < date.month := by omega
  rw [dayNumber, dayOfYear, monthIndex_eq least, monthStart_eq date.year (by omega)]
  simp only [march]
  omega

/-- Weekdays run on from day to day without a gap, across the ends of years too: a year of 52 weeks
and a day moves them on by the day, and by its leap day.
-/
theorem daysFromSunday_weekday (valid : date.Valid)
    : date.weekday.daysFromSunday = (date.dayNumber + 4) % 7 := by
  have day := dayNumber_eq_dayOfYear valid
  rw [yearStart] at day
  rw [weekday, Weekday.daysFromSunday_afterSunday]
  omega

/-- The weekday of a day is told by the residue of its number. -/
theorem weekday_ofDayNumber_eq_iff {day : Int} {found : Weekday}
    : (ofDayNumber day).weekday = found ↔ (day + 4) % 7 = found.daysFromSunday := by
  obtain ⟨valid, named⟩ := valid_ofDayNumber day
  rw [← Weekday.daysFromSunday_inj, daysFromSunday_weekday valid, named]

-----------------------------------------------------------------------------------------
-- Adding months
-----------------------------------------------------------------------------------------

/-- The same day some months on, or the last day of that month if it is too short. -/
def addMonths (date : Date) (count : Int) : Date :=
  let index := date.monthIndex + count
  let year := index / 12
  let month := (index % 12).toNat + 1
  ⟨year, month, min date.day (daysIn year month)⟩

theorem monthIndex_addMonths (date : Date) (count : Int)
    : (date.addMonths count).monthIndex = date.monthIndex + count := by
  have parts : (date.addMonths count).monthIndex
      = 12 * ((date.monthIndex + count) / 12)
        + (((date.monthIndex + count) % 12).toNat + 1 : Nat) - 1 := rfl
  omega

theorem valid_addMonths (valid : date.Valid) (count : Int)
    : (date.addMonths count).Valid := by
  obtain ⟨least, _⟩ := valid.day
  refine ⟨?_, ?_⟩
  · simp only [addMonths]
    omega
  · have room := le_daysIn (date.addMonths count).year (date.addMonths count).month
    simp only [addMonths] at *
    omega

end Date

end SeriesWire
