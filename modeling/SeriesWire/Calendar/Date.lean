import SeriesWire.Calendar.Month
import SeriesWire.Calendar.Weekday
import SeriesWire.Number.Padded

/-! Civil dates of the supported years and their text. -/

namespace SeriesWire

open Calendar

/-- A year, a month from one to twelve and a day of the month from one. -/
structure Date where
  year : Int
  month : Nat
  day : Nat
  deriving DecidableEq, Repr

namespace Date

def monthIndex (date : Date) : Int :=
  12 * date.year + date.month - 1

def dayNumber (date : Date) : Int :=
  monthStart date.monthIndex + date.day - 1

/-- The date of a day counted from 1 January 1970. -/
def ofDayNumber (day : Int) : Date :=
  let index := monthOf day
  { year := index / 12
    month := (index % 12).toNat + 1
    day := (day - monthStart index).toNat + 1 }

/-- The place of a date in its year; the leap day comes before March. -/
def dayOfYear (date : Date) : Int :=
  daysBefore (date.month - 1) + date.day + if 2 < date.month ∧ isLeapYear date.year then 1 else 0

/-- The weekday of a date. A year moves on by one weekday, a leap year by two, and the day before
year one was a Sunday. -/
def weekday (date : Date) : Weekday :=
  let past := date.year - 1
  .afterSunday (past + past / 4 - past / 100 + past / 400 + date.dayOfYear)

/-- The date with these parts, if the calendar has it in a supported year. -/
def of? (year : Int) (month day : Nat) : Option Date :=
  let date : Date := ⟨year, month, day⟩
  if supportsYear year ∧ 1 ≤ month ∧ month ≤ 12 ∧ 1 ≤ day ∧ day ≤ monthLength date.monthIndex then
    some date
  else none

/-- Years of four digits are written bare, all others with their sign. -/
def yearText (year : Int) : String :=
  if 0 ≤ year ∧ year ≤ 9999 then padded 4 year
  else if year < 0 then padded 5 year
  else "+" ++ padded 4 year

def text (date : Date) : String :=
  yearText date.year ++ "-" ++ padded 2 date.month ++ "-" ++ padded 2 date.day

end Date

end SeriesWire
