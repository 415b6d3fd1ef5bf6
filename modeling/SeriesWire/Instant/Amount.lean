import SeriesWire.Instant.TimeUnit
import SeriesWire.Number.Padded

/-! Amounts of time: spans of a fixed length, and calendar periods whose length depends on the date
they start from.
-/

namespace SeriesWire

/-- A span is an exact number of nanoseconds. -/
inductive Amount where
  | span (nanos : Int)
  | period (years months days : Int32)
  deriving DecidableEq, Repr

/-- Why a count makes no span. -/
inductive AmountError where
  | seconds
  | millis
  deriving DecidableEq, Repr

def AmountError.message : AmountError → String
  | .seconds => "TimeDelta::seconds out of bounds"
  | .millis => "TimeDelta::milliseconds out of bounds"

namespace Amount

/-- Spans are limited to the milliseconds that 64 bits can count on both sides of zero. -/
def ofSeconds (count : Int64) : Except AmountError Amount :=
  if count.toInt.natAbs ≤ 9223372036854775 then .ok (.span (count.toInt * 1000000000))
  else .error .seconds

def ofMillis (count : Int64) : Except AmountError Amount :=
  if count = Int64.minValue then .error .millis else .ok (.span (count.toInt * 1000000))

def ofNanos (count : Int64) : Amount :=
  .span count.toInt

def ofMonths (count : Int32) : Amount :=
  .period 0 count 0

def ofDays (count : Int32) : Amount :=
  .period 0 0 count

def ofWeeks (count : Int32) : Amount :=
  .ofDays (Int32.ofInt (count.toInt * 7))

/-- The whole seconds of a span, towards zero. -/
def wholeSeconds (nanos : Int) : Int :=
  nanos.tdiv 1000000000

/-- What a span has besides its whole seconds, with the span's sign. -/
def restNanos (nanos : Int) : Int :=
  nanos.tmod 1000000000

/-- A component with its letter, left out when it is zero. -/
def component (count : Int) (letter : String) : String :=
  if count = 0 then "" else toString count ++ letter

/-- The seconds with up to nine fraction digits, trailing zeros cut off. -/
def secondsText (seconds nanos : Int) : String :=
  if seconds = 0 ∧ nanos = 0 then ""
  else if nanos = 0 then s!"{seconds}S"
  else
    let digits := ((padded 9 nanos.natAbs).toList.reverse.dropWhile (· == '0')).reverse
    s!"{seconds}." ++ String.ofList digits ++ "S"

/-- The ISO 8601 duration. The fraction of a span shows its sign only through the seconds. -/
def iso8601 : Amount → String
  | .span nanos =>
    let total := wholeSeconds nanos
    if nanos = 0 then "PT0S"
    else
      "PT" ++ component (total.tdiv 3600) "H" ++ component ((total.tmod 3600).tdiv 60) "M"
        ++ secondsText (total.tmod 60) (restNanos nanos)
  | .period years months days =>
    if years = 0 ∧ months = 0 ∧ days = 0 then "P0D"
    else
      "P" ++ component years.toInt "Y" ++ component months.toInt "M" ++ component days.toInt "D"

/-- A span as floored seconds and the nanoseconds above them. -/
def spanText (nanos : Int) : String :=
  s!"TimeDelta \x7b secs: {nanos / 1000000000}, nanos: {nanos % 1000000000} \x7d"

end Amount

end SeriesWire
