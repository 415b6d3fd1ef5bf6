/-! The proleptic Gregorian calendar on two number lines: days counted from 1 January 1970, and
months counted by `12 * year + month` with January as month zero.
-/

namespace SeriesWire.Calendar

def isLeapYear (year : Int) : Bool :=
  year % 4 = 0 ∧ (year % 100 ≠ 0 ∨ year % 400 = 0)

/-- The first day of a year. -/
def yearStart (year : Int) : Int :=
  let past := year - 1
  365 * past + past / 4 - past / 100 + past / 400 - 719162

/-- The days of a common year before one of its months. -/
def daysBefore : Nat → Int
  | 0 => 0
  | 1 => 31
  | 2 => 59
  | 3 => 90
  | 4 => 120
  | 5 => 151
  | 6 => 181
  | 7 => 212
  | 8 => 243
  | 9 => 273
  | 10 => 304
  | _ => 334

/-- The first day of a month; the leap day comes before March. -/
def monthStart (index : Int) : Int :=
  let year := index / 12
  let month := (index % 12).toNat
  yearStart year + daysBefore month + if 2 ≤ month ∧ isLeapYear year then 1 else 0

def monthLength (index : Int) : Int :=
  monthStart (index + 1) - monthStart index

/-- The year that a day lies in. The mean length of a year gives it or the year before. -/
def yearOf (day : Int) : Int :=
  -- The guess is never late, and early by a year at most.
  let guess := 400 * (day + 719162) / 146097 + 1
  if yearStart (guess + 1) ≤ day then guess + 1 else guess

/-- The month that a day lies in: the last month of its year that has begun. -/
def monthOf (day : Int) : Int :=
  let january := 12 * yearOf day
  january + (List.range 11).countP fun (month : Nat) => monthStart (january + month + 1) ≤ day

/-- The first year of the supported range. -/
def firstYear : Int :=
  -262143

/-- The last year of the supported range. -/
def lastYear : Int :=
  262142

def supportsDay (day : Int) : Bool :=
  yearStart firstYear ≤ day ∧ day < yearStart (lastYear + 1)

def supportsYear (year : Int) : Bool :=
  firstYear ≤ year ∧ year ≤ lastYear

end SeriesWire.Calendar
