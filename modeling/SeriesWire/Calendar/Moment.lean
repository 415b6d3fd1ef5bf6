import SeriesWire.Calendar.Date

/-! Civil times in UTC, to the nanosecond.
A leap second is the second sixty of a minute: its nanoseconds run on past one second.
-/

namespace SeriesWire

open Calendar

/-- Why a number names no civil time. -/
inductive CalendarError where
  | unsupportedInstant (epoch nanos : Int)
  | uncountableDay (day : Int)
  | noSuchMonth (year : Int) (month : Nat)
  deriving DecidableEq, Repr

def CalendarError.message : CalendarError → String
  | .unsupportedInstant epoch nanos =>
    s!"epoch {epoch}." ++ padded 9 nanos ++ " is out of the civil range"
  | .uncountableDay day => s!"epoch day {day} is out of range"
  | .noSuchMonth year month => s!"invalid month {year}-{month}"

/-- A civil time: a day counted from 1 January 1970, the second in it, and the nanoseconds, which
reach two seconds only in the last second of a minute. -/
structure Moment where
  day : Int
  second : Int
  nanos : Int
  deriving DecidableEq, Repr

namespace Moment

/-- The nanoseconds that a second of the given number can hold. -/
def holdsNanos (epoch nanos : Int) : Bool :=
  nanos < 1000000000 ∨ (nanos < 2000000000 ∧ epoch % 60 = 59)

/-- The civil time of an instant, if it lies in the supported years. The nanoseconds are taken
modulo `2 ^ 32`. -/
def ofInstant (epoch nanos : Int) : Except CalendarError Moment :=
  let day := epoch / 86400
  let kept := nanos % 4294967296
  if supportsDay day ∧ holdsNanos epoch kept then .ok ⟨day, epoch % 86400, kept⟩
  else .error (.unsupportedInstant epoch nanos)

/-- The start of a civil date. -/
def midnight (date : Date) : Moment :=
  ⟨date.dayNumber, 0, 0⟩

def epoch (moment : Moment) : Int :=
  86400 * moment.day + moment.second

/-- Whether a civil time comes before the end of the supported years. A leap second at the very end
of them does not. -/
def precedesEnd (moment : Moment) : Bool :=
  1000000000 * moment.epoch + moment.nanos < 1000000000 * (86400 * yearStart (lastYear + 1))

def date (moment : Moment) : Date :=
  .ofDayNumber moment.day

def monthIndex (moment : Moment) : Int :=
  monthOf moment.day

/-- The shortest of no, three, six and nine fraction digits that is exact. -/
def fractionText (nanos : Int) : String :=
  if nanos = 0 then ""
  else if nanos % 1000000 = 0 then "." ++ padded 3 (nanos / 1000000)
  else if nanos % 1000 = 0 then "." ++ padded 6 (nanos / 1000)
  else "." ++ padded 9 nanos

/-- The RFC 3339 text with the offset `Z`. -/
def text (moment : Moment) : String :=
  let carried := moment.nanos / 1000000000
  moment.date.text ++ "T" ++ padded 2 (moment.second / 3600)
    ++ ":" ++ padded 2 (moment.second / 60 % 60)
    ++ ":" ++ padded 2 (moment.second % 60 + carried)
    ++ fractionText (moment.nanos % 1000000000) ++ "Z"

end Moment

namespace Calendar

/-- The first day of a month of a supported year. -/
def firstOfMonth (year : Int) (month : Nat) : Except CalendarError Date :=
  match Date.of? year month 1 with
  | some date => .ok date
  | none => .error (.noSuchMonth year month)

/-- The weekday of a day of the supported years. A day too far out for its seconds to be counted
in 64 bits is told apart from one that is merely unsupported. -/
def weekday (day : Int) : Except CalendarError Weekday :=
  let epoch := 86400 * day
  if Int64.minValue.toInt ≤ epoch ∧ epoch ≤ Int64.maxValue.toInt then
    (Moment.ofInstant epoch 0).map fun moment => moment.date.weekday
  else .error (.uncountableDay day)

end Calendar

end SeriesWire
