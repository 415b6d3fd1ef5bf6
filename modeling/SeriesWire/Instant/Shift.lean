import SeriesWire.Instant.Amount
import SeriesWire.Instant.Timestamp

/-! Moving timestamps by amounts of time.
Spans move the exact instant; periods move the civil date in UTC, months before days.
-/

namespace SeriesWire

open Calendar

inductive Direction where
  | forward
  | backward
  deriving DecidableEq, Repr

def Direction.sign : Direction → Int
  | .forward => 1
  | .backward => -1

/-- Why a timestamp could not be moved. -/
inductive ShiftError where
  | unsupportedStart (cause : CalendarError)
  | spanOverflow (nanos : Int)
  | monthCountOverflow (years months : Int)
  | monthsOverflow (months : Int)
  | daysOverflow (days : Int)
  deriving DecidableEq, Repr

def ShiftError.message : ShiftError → String
  | .unsupportedStart cause => cause.message
  | .spanOverflow nanos => "timestamp overflow adding " ++ Amount.spanText nanos
  | .monthCountOverflow years months => s!"calendar overflow shifting {years} years {months} months"
  | .monthsOverflow months => s!"calendar overflow shifting {months} months"
  | .daysOverflow days => s!"calendar overflow shifting {days} days"

namespace Timestamp

/-- Moves by an exact number of nanoseconds: whole seconds first, then the carry of the rest.
The rest joins the nanoseconds exactly. Timestamps whose nanoseconds are so far from normalized that
this sum leaves 64 bits are outside of the description.
-/
def shiftSpan (t : Timestamp) (nanos : Int) (direction : Direction)
    : Except ShiftError Timestamp := do
  let refuse : RangeError → ShiftError := fun _ => .spanOverflow nanos
  let moved ← (narrow64 (t.epoch.toInt + direction.sign * Amount.wholeSeconds nanos)).mapError
    refuse
  let rest := t.nanos.toInt + direction.sign * Amount.restNanos nanos
  let epoch ← (narrow64 (moved.toInt + rest / 1000000000)).mapError refuse
  return { epoch, nanos := Int64.ofInt (rest % 1000000000) }

/-- The months that a period moves by, if every step of the count fits 32 bits. -/
def periodMonths (years months : Int32) (direction : Direction) : Except RangeError Int := do
  let yearMonths ← narrow32 (years.toInt * 12)
  let total ← narrow32 (yearMonths.toInt + months.toInt)
  return (← narrow32 (total.toInt * direction.sign)).toInt

/-- The same day of another month, or that month's last day if it is too short. -/
def clampedDay (index day : Int) : Int :=
  monthStart index + min day (monthLength index - 1)

/-- Moves the civil date by months and then by days, and keeps the time of day. -/
def shiftPeriod (t : Timestamp) (years months days : Int32) (direction : Direction)
    : Except ShiftError Timestamp := do
  let moment ← t.moment.mapError .unsupportedStart
  let shifted ← (periodMonths years months direction).mapError fun _ =>
    .monthCountOverflow years.toInt months.toInt
  let index := moment.monthIndex + shifted
  if !supportsYear (index / 12) then throw (.monthsOverflow shifted)
  -- The days are counted from the clamped date, which has to be a date itself.
  let day := clampedDay index (moment.day - monthStart moment.monthIndex)
  let step ← (narrow32 (days.toInt * direction.sign)).mapError fun _ => .daysOverflow days.toInt
  if !supportsDay (day + step.toInt) then throw (.daysOverflow step.toInt)
  let landed : Moment := { moment with day := day + step.toInt }
  -- Only days that lead forward may not end in the leap second that closes the calendar.
  if 0 < step.toInt ∧ !landed.precedesEnd then throw (.daysOverflow step.toInt)
  return ⟨Int64.ofInt landed.epoch, Int64.ofInt landed.nanos⟩

def shift (t : Timestamp) (amount : Amount) (direction : Direction)
    : Except ShiftError Timestamp :=
  match amount with
  | .span nanos => t.shiftSpan nanos direction
  | .period years months days => t.shiftPeriod years months days direction

def add (t : Timestamp) (amount : Amount) : Except ShiftError Timestamp :=
  t.shift amount .forward

def subtract (t : Timestamp) (amount : Amount) : Except ShiftError Timestamp :=
  t.shift amount .backward

end Timestamp

end SeriesWire
