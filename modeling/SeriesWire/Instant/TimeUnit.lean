/-! The units in which intervals are counted. -/

namespace SeriesWire

inductive TimeUnit where
  | nanos
  | micros
  | millis
  | seconds
  | minutes
  | hours
  | days
  | weeks
  | months
  | years
  deriving DecidableEq, Repr

namespace TimeUnit

/-- The length of a unit in nanoseconds; weeks and longer units are counted on the calendar. -/
def fixedNanos? : TimeUnit → Option Int
  | .nanos => some 1
  | .micros => some 1000
  | .millis => some 1000000
  | .seconds => some 1000000000
  | .minutes => some (60 * 1000000000)
  | .hours => some (3600 * 1000000000)
  | .days => some (86400 * 1000000000)
  | .weeks | .months | .years => none

/-- The capitalised name. -/
def name : TimeUnit → String
  | .nanos => "Nanos"
  | .micros => "Micros"
  | .millis => "Millis"
  | .seconds => "Seconds"
  | .minutes => "Minutes"
  | .hours => "Hours"
  | .days => "Days"
  | .weeks => "Weeks"
  | .months => "Months"
  | .years => "Years"

/-- The lower-case name. -/
def keyword : TimeUnit → String
  | .nanos => "nanos"
  | .micros => "micros"
  | .millis => "millis"
  | .seconds => "seconds"
  | .minutes => "minutes"
  | .hours => "hours"
  | .days => "days"
  | .weeks => "weeks"
  | .months => "months"
  | .years => "years"

/-- The short form behind a count, as in `1m`. -/
def suffix : TimeUnit → String
  | .nanos => "ns"
  | .micros => "us"
  | .millis => "ms"
  | .seconds => "s"
  | .minutes => "m"
  | .hours => "h"
  | .days => "d"
  | .weeks => "w"
  | .months => "n"
  | .years => "y"

def all : List TimeUnit :=
  [.nanos, .micros, .millis, .seconds, .minutes, .hours, .days, .weeks, .months, .years]

def ofKeyword? (text : String) : Option TimeUnit :=
  all.find? fun unit => unit.keyword == text

end TimeUnit

end SeriesWire
