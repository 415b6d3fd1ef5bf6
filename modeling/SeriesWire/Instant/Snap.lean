import SeriesWire.Instant.Timestamp

/-! Snapping timestamps down to the boundaries of an interval.
Fixed units count from the Unix epoch, weeks from the first anchor weekday on or after it, months
and years from year zero.
-/

namespace SeriesWire

open Calendar

/-- Why a timestamp has no boundary to snap to. -/
inductive SnapError where
  | notPositive (interval : Int)
  | unrepresentable (cause : RangeError)
  | weekOverflow (week : Int)
  | unsupported (cause : CalendarError)
  deriving DecidableEq, Repr

def SnapError.message : SnapError → String
  | .notPositive interval => s!"snap interval must be positive, got {interval}"
  | .unrepresentable cause => cause.message
  | .weekOverflow week => s!"week {week} is out of range"
  | .unsupported cause => cause.message

/-- The greatest multiple of `width` that is not above `n`. -/
def floorMultiple (n width : Int) : Int :=
  n / width * width

/-- The first day on or after 1 January 1970 that has the given weekday. -/
def firstAnchor (anchor : Weekday) : Int :=
  (anchor.daysFromSunday - 4) % 7

namespace Timestamp

/-- The boundary of a grid of `width` nanoseconds. -/
def snapFixed (t : Timestamp) (width : Int) : Except SnapError Timestamp := do
  let snapped := floorMultiple t.instant width
  let epoch ← (narrow64 (snapped / 1000000000)).mapError .unrepresentable
  return { epoch, nanos := Int64.ofInt (snapped % 1000000000) }

/-- The midnight that starts a group of `interval` weeks.
The days of a group are counted exactly. Intervals so long that these days leave 64 bits are outside
of the description.
-/
def snapWeeks (t : Timestamp) (interval : Int) (anchor : Weekday)
    : Except SnapError Timestamp := do
  let day := t.epoch.toInt / 86400
  let current ← (weekday day).mapError .unsupported
  let weekStart := day - (current.daysFromSunday - anchor.daysFromSunday) % 7
  let first := firstAnchor anchor
  -- Weeks are counted from the first anchor, so the count of the week of day zero is -1 or 0.
  let week := floorMultiple ((weekStart - first) / 7) interval
  let epoch ← (narrow64 ((first + week * 7) * 86400)).mapError fun _ => .weekOverflow week
  return .ofEpoch epoch

/-- The midnight that starts a group of `width` months.
The width is exact. Years are counted in twelves of months, and intervals of them that leave 64 bits
are outside of the description.
-/
def snapMonths (t : Timestamp) (width : Int) : Except SnapError Timestamp := do
  let moment ← t.moment.mapError .unsupported
  let index := floorMultiple moment.monthIndex width
  let year ← (narrow32 (index / 12)).mapError .unrepresentable
  let date ← (firstOfMonth year.toInt ((index % 12).toNat + 1)).mapError .unsupported
  return .ofEpoch (Int64.ofInt (Moment.midnight date).epoch)

/-- The last boundary of `interval * unit` that is not after the timestamp. -/
def snap (t : Timestamp) (interval : Int64) (unit : TimeUnit) (anchor : Weekday)
    : Except SnapError Timestamp :=
  if interval.toInt < 1 then .error (.notPositive interval.toInt)
  else
    match unit.fixedNanos?, unit with
    | some nanos, _ => t.snapFixed (nanos * interval.toInt)
    | none, .weeks => t.snapWeeks interval.toInt anchor
    | none, .years => t.snapMonths (interval.toInt * 12)
    | none, _ => t.snapMonths interval.toInt

end Timestamp

end SeriesWire
