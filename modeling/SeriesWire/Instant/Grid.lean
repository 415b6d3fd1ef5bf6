import SeriesWire.Instant.Amount
import SeriesWire.Instant.Snap

/-! Time grids shared by every series of a result. -/

namespace SeriesWire

/-- A grid of equal steps. Values aligned to it need no timestamps of their own. -/
structure Grid where
  start : Timestamp
  stop : Timestamp
  step : Option Amount
  label : String
  zone : Option String
  unit : Option TimeUnit
  deriving DecidableEq, Repr

namespace Grid

/-- The amount of time between two neighbouring points of a grid of `interval * unit`. -/
def stepOf (interval : Int64) (unit : TimeUnit) : Except RangeError Amount :=
  match unit.fixedNanos?, unit with
  | some nanos, _ => (narrow64 (nanos * interval.toInt)).map .ofNanos
  | none, .weeks => (narrow32 interval.toInt).map .ofWeeks
  | none, .years => (narrow32 interval.toInt).map fun years => .period years 0 0
  | none, _ => (narrow32 interval.toInt).map .ofMonths

/-- The grid whose first point is the boundary at or before `start`. -/
def fixed (start stop : Timestamp) (interval : Int64) (unit : TimeUnit) (zone : Option String)
    : Except SnapError Grid := do
  let first ← start.snap interval unit .sunday
  let step ← (stepOf interval unit).mapError .unrepresentable
  return {
    start := first
    stop
    step := some step
    label := s!"{interval}" ++ unit.suffix
    zone
    unit := some unit }

end Grid

end SeriesWire
