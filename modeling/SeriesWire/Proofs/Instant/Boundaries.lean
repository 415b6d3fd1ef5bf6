import SeriesWire.Instant.Snap
import SeriesWire.Proofs.Instant.Shift

/-! The boundaries of an interval cut the line of instants without gaps.
They are numbered in their order, as multiples of a fixed length or by the days that they start.
-/

namespace SeriesWire

open Calendar

-----------------------------------------------------------------------------------------
-- Midnights
-----------------------------------------------------------------------------------------

/-- The instant that starts a day. -/
def midnight (day : Int) : Int :=
  86400000000000 * day

namespace Timestamp

variable {t : Timestamp}

/-- A timestamp lies between the midnights of its day and of the next. -/
theorem midnight_day (normal : t.Normalized)
    : midnight t.day ≤ t.instant ∧ t.instant < midnight (t.day + 1) := by
  simp only [Normalized, midnight, day, instant] at *
  omega

theorem instant_eq_midnight_iff (normal : t.Normalized) {day : Int}
    : t.instant = midnight day
      ↔ t.day = day ∧ t.epoch.toInt % 86400 = 0 ∧ t.nanos.toInt = 0 := by
  simp only [Normalized, midnight, Timestamp.day, instant] at *
  omega

/-- At a midnight stand the timestamps of whole seconds that start its day. -/
theorem at_midnight_iff {day : Int}
    : t.Normalized ∧ t.instant = midnight day
      ↔ ∃ epoch : Int64, epoch.toInt = 86400 * day ∧ ofEpoch epoch = t := by
  have seconds : midnight day / 1000000000 = 86400 * day := by
    rw [midnight]
    omega
  have left : midnight day % 1000000000 = 0 := by
    rw [midnight]
    omega
  rw [at_instant_iff, seconds, left]
  exact Iff.rfl

theorem midnight_le_iff (normal : t.Normalized) {day : Int}
    : midnight day ≤ t.instant ↔ day ≤ t.day := by
  obtain ⟨early, late⟩ := midnight_day normal
  simp only [midnight] at *
  omega

end Timestamp

-----------------------------------------------------------------------------------------
-- Boundaries
-----------------------------------------------------------------------------------------

namespace TimeUnit

/-- The boundary of `interval * unit` that has the given number, as an exact instant. -/
def boundary (unit : TimeUnit) (interval : Int) (anchor : Weekday) (number : Int) : Int :=
  match unit.fixedNanos?, unit with
  | some length, _ => number * (length * interval)
  | none, .weeks => midnight (firstAnchor anchor + number * interval * 7)
  | none, .years => midnight (monthStart (number * (interval * 12)))
  | none, _ => midnight (monthStart (number * interval))

/-- A unit has a fixed length, or it is counted on the calendar. -/
theorem fixed_or_calendar (unit : TimeUnit)
    : (∃ length, unit.fixedNanos? = some length ∧ 0 < length)
      ∨ unit = .weeks ∨ unit = .months ∨ unit = .years := by
  cases unit <;> simp [fixedNanos?]

theorem boundary_of_fixed {unit : TimeUnit} {length : Int}
    (fixed : unit.fixedNanos? = some length) (interval : Int) (anchor : Weekday) (number : Int)
    : unit.boundary interval anchor number = number * (length * interval) := by
  simp only [boundary, fixed]

variable (unit : TimeUnit) (anchor : Weekday) {interval : Int}

/-- Boundaries ascend with their numbers. -/
theorem boundary_lt_succ (positive : 0 < interval) (number : Int)
    : unit.boundary interval anchor number < unit.boundary interval anchor (number + 1) := by
  have months {width : Int} (wide : 0 < width)
      : midnight (monthStart (number * width)) < midnight (monthStart ((number + 1) * width)) := by
    have next := monthStart_lt_succ (number * width)
    have later := monthStart_mono (show number * width + 1 ≤ (number + 1) * width by
      rw [Int.add_mul]
      omega)
    simp only [midnight]
    omega
  rcases unit.fixed_or_calendar with ⟨length, fixed, long⟩ | rfl | rfl | rfl
  · have width := Int.mul_pos long positive
    rw [boundary_of_fixed fixed, boundary_of_fixed fixed, Int.add_mul]
    omega
  · have width := Int.add_mul number 1 interval
    simp only [boundary, fixedNanos?, midnight]
    omega
  · exact months positive
  · exact months (Int.mul_pos positive (by decide))

theorem boundary_mono (positive : 0 < interval) {first second : Int} (h : first ≤ second)
    : unit.boundary interval anchor first ≤ unit.boundary interval anchor second := by
  obtain ⟨count, rfl⟩ := Int.le.dest h
  clear h
  induction count with
  | zero => simp
  | succ count ih =>
      have next := unit.boundary_lt_succ anchor positive (first + count)
      rw [Int.natCast_succ, ← Int.add_assoc]
      omega

end TimeUnit

end SeriesWire
