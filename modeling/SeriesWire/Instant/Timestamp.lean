import SeriesWire.Calendar.Moment
import SeriesWire.Instant.TimeUnit
import SeriesWire.Number.FixedWidth

/-! Instants as seconds since the Unix epoch and nanoseconds, ordered by seconds first.
Seconds saturate at the ends of 64 bits when nanoseconds carry into them.
-/

namespace SeriesWire

structure Timestamp where
  epoch : Int64
  nanos : Int64
  deriving DecidableEq, Repr, Inhabited

namespace Timestamp

instance : Ord Timestamp :=
  ⟨compareLex (compareOn epoch) (compareOn nanos)⟩

instance : Std.TransOrd Timestamp :=
  inferInstanceAs (Std.TransCmp (compareLex (compareOn epoch) (compareOn nanos)))

instance : Std.LawfulEqOrd Timestamp where
  eq_of_compare {a b} h := by
    have h' : (compare a.epoch b.epoch).then (compare a.nanos b.nanos) = .eq := h
    obtain ⟨he, hn⟩ := Ordering.then_eq_eq.mp h'
    cases a
    cases b
    cases Std.LawfulEqCmp.eq_of_compare he
    cases Std.LawfulEqCmp.eq_of_compare hn
    rfl

instance : LT Timestamp :=
  ltOfOrd

instance : LE Timestamp :=
  leOfOrd

instance (a b : Timestamp) : Decidable (a < b) :=
  inferInstanceAs (Decidable (compare a b = .lt))

instance (a b : Timestamp) : Decidable (a ≤ b) :=
  inferInstanceAs (Decidable ((compare a b).isLE = true))

/-- The exact instant in nanoseconds since the Unix epoch. -/
def instant (t : Timestamp) : Int :=
  t.epoch.toInt * 1000000000 + t.nanos.toInt

/-- The nanoseconds are less than a second. -/
def Normalized (t : Timestamp) : Prop :=
  0 ≤ t.nanos.toInt ∧ t.nanos.toInt < 1000000000

/-- Carries whole seconds out of the nanoseconds. -/
def of (epoch nanos : Int64) : Timestamp :=
  { epoch := saturate64 (epoch.toInt + nanos.toInt / 1000000000)
    nanos := Int64.ofInt (nanos.toInt % 1000000000) }

def ofEpoch (epoch : Int64) : Timestamp :=
  ⟨epoch, 0⟩

def ofMillis (millis : Int64) : Timestamp :=
  .of (Int64.ofInt (millis.toInt / 1000)) (Int64.ofInt (millis.toInt % 1000 * 1000000))

/-- The infinite future. -/
def max : Timestamp :=
  ⟨Int64.maxValue, 0⟩

/-- Milliseconds since the Unix epoch; both steps saturate. -/
def millis (t : Timestamp) : Int64 :=
  saturate64 ((saturate64 (t.epoch.toInt * 1000)).toInt + t.nanos.toInt.tdiv 1000000)

/-- The finest resolution that the timestamp carries. -/
def resolution (t : Timestamp) : TimeUnit :=
  if t.nanos = 0 then .seconds else .nanos

def zone : String :=
  "UTC"

/-- The civil time of the timestamp. -/
def moment (t : Timestamp) : Except CalendarError Moment :=
  Moment.ofInstant t.epoch.toInt t.nanos.toInt

/-- One line that shows every reading of the timestamp. -/
def text (t : Timestamp) : String :=
  let utc := match t.moment with
    | .ok moment => moment.text
    | .error _ => "out-of-range"
  s!"timestamp={t.epoch}, utc={utc}, epoch={t.epoch}, nanos={t.nanos}, msEpoch={t.millis}"

end Timestamp

/-- The comparisons that can be asked of two timestamps. -/
inductive Comparison where
  | lt
  | le
  | gt
  | ge
  | eq
  | ne
  deriving DecidableEq, Repr

namespace Comparison

def accepts : Comparison → Ordering → Bool
  | .lt, ordering => ordering == .lt
  | .le, ordering => ordering != .gt
  | .gt, ordering => ordering == .gt
  | .ge, ordering => ordering != .lt
  | .eq, ordering => ordering == .eq
  | .ne, ordering => ordering != .eq

def all : List Comparison :=
  [.lt, .le, .gt, .ge, .eq, .ne]

end Comparison

def Timestamp.holds (comparison : Comparison) (a b : Timestamp) : Bool :=
  comparison.accepts (compare a b)

end SeriesWire
