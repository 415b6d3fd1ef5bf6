import SeriesWire.Instant.Grid
import SeriesWire.Proofs.Instant.Snapping

/-! The points of a grid are neighbouring boundaries of its interval.
The first is the last boundary that is not behind the start the grid was asked for, and every step
leads from one boundary to the next.
-/

namespace SeriesWire

open Calendar

namespace Grid

/-- The point that a number of steps lead to from the first point of a grid. -/
def point? (grid : Grid) : Nat → Option Timestamp
  | 0 => some grid.start
  | number + 1 => do
    let before ← grid.point? number
    (before.add (← grid.step)).toOption

/-- The points ascend, and the first alone is not behind the given start. -/
structure Laid (grid : Grid) (start : Timestamp) : Prop where
  first : grid.start ≤ start
  others : ∀ number point, grid.point? (number + 1) = some point → start < point
  ascending : ∀ first second a b,
    first < second → grid.point? first = some a → grid.point? second = some b → a < b

/-- A point behind the first is a step behind the point before it. -/
theorem of_point?_succ {grid : Grid} {step : Amount} (shared : grid.step = some step) {number : Nat}
    {point : Timestamp} (found : grid.point? (number + 1) = some point)
    : ∃ previous, grid.point? number = some previous ∧ previous.add step = .ok point := by
  obtain ⟨previous, hprevious, moved⟩ := Option.bind_eq_some_iff.mp found
  refine ⟨previous, hprevious, ?_⟩
  rw [shared] at moved
  change (previous.add step).toOption = some point at moved
  cases h : previous.add step with
  | error cause =>
      rw [h] at moved
      cases moved
  | ok landed =>
      rw [h] at moved
      cases moved
      rfl

-----------------------------------------------------------------------------------------
-- One step
-----------------------------------------------------------------------------------------

variable {point next : Timestamp}

/-- A period leads from one midnight to another. -/
theorem of_add_period (normal : point.Normalized) {day : Int}
    (stands : point.instant = midnight day) {years months days : Int32}
    (moved : point.add (.period years months days) = .ok next)
    : next.Normalized
      ∧ next.instant
        = midnight (Timestamp.clampedDay (monthOf day + (12 * years.toInt + months.toInt))
            (day - monthStart (monthOf day))
          + days.toInt) := by
  obtain ⟨sameDay, second, nanos⟩ := (Timestamp.instant_eq_midnight_iff normal).mp stands
  obtain ⟨-, -, keptNanos, keptSecond, landed⟩ := Timestamp.day_of_shiftPeriod normal moved
  have normal' : next.Normalized := by
    rw [Timestamp.Normalized, keptNanos]
    exact normal
  refine ⟨normal', (Timestamp.instant_eq_midnight_iff normal').mpr ⟨?_, ?_, ?_⟩⟩
  · simpa only [sameDay, Direction.sign, Int.one_mul] using landed
  · rw [keptSecond, second]
  · rw [keptNanos, nanos]

/-- Days alone are added to the day. -/
theorem of_add_days (normal : point.Normalized) {day : Int} (stands : point.instant = midnight day)
    {days : Int32} (moved : point.add (.ofDays days) = .ok next)
    : next.Normalized ∧ next.instant = midnight (day + days.toInt) := by
  have zero : (0 : Int32).toInt = 0 := by decide
  have landed := of_add_period normal stands moved
  rwa [zero, Int.mul_zero, Int.add_zero, Int.add_zero, Timestamp.clampedDay_monthOf] at landed

/-- Months alone lead from the start of one month to that of another. -/
theorem of_add_months (normal : point.Normalized) {index : Int}
    (stands : point.instant = midnight (monthStart index)) {years months : Int32}
    (moved : point.add (.period years months 0) = .ok next)
    : next.Normalized
      ∧ next.instant = midnight (monthStart (index + (12 * years.toInt + months.toInt))) := by
  have zero : (0 : Int32).toInt = 0 := by decide
  have landed := of_add_period normal stands moved
  rwa [monthOf_monthStart, Int.sub_self, Timestamp.clampedDay_zero, zero, Int.add_zero] at landed

/-- A step leads from a boundary to the next one, as long as the days of its weeks fit 32 bits. -/
theorem of_add_step {interval : Int64} {unit : TimeUnit} {step : Amount}
    (positive : 0 < interval.toInt)
    (counted : unit = .weeks → interval.toInt * 7 ≤ Int32.maxValue.toInt)
    (stepped : stepOf interval unit = .ok step) (normal : point.Normalized) {anchor : Weekday}
    {number : Int} (stands : point.instant = unit.boundary interval.toInt anchor number)
    (moved : point.add step = .ok next)
    : next.Normalized ∧ next.instant = unit.boundary interval.toInt anchor (number + 1) := by
  have zero : (0 : Int32).toInt = 0 := by decide
  rcases unit.fixed_or_calendar with ⟨length, fixed, -⟩ | rfl | rfl | rfl
  · simp only [stepOf, fixed] at stepped
    obtain ⟨nanos, hnanos, rfl⟩ := map_eq_ok_iff.mp stepped
    obtain ⟨normal', landed⟩ := (Timestamp.shiftSpan_eq_ok_iff normal).mp moved
    refine ⟨normal', ?_⟩
    rw [TimeUnit.boundary_of_fixed fixed] at stands ⊢
    rw [landed, stands, narrow64_eq_ok_iff.mp hnanos, Direction.sign, Int.add_mul]
  · obtain ⟨weeks, hweeks, rfl⟩ := map_eq_ok_iff.mp stepped
    have same := narrow32_eq_ok_iff.mp hweeks
    have days : (Int32.ofInt (weeks.toInt * 7)).toInt = interval.toInt * 7 := by
      have most := Int32.toInt_maxValue
      have fits := counted rfl
      rw [same]
      apply Int32.toInt_ofInt_of_le
      · omega
      · omega
    obtain ⟨normal', landed⟩ := of_add_days normal stands moved
    refine ⟨normal', ?_⟩
    rw [landed, days]
    simp only [TimeUnit.boundary, TimeUnit.fixedNanos?, Int.add_mul, Int.one_mul, Int.add_assoc]
  · obtain ⟨months, hmonths, rfl⟩ := map_eq_ok_iff.mp stepped
    obtain ⟨normal', landed⟩ := of_add_months normal stands moved
    refine ⟨normal', ?_⟩
    rw [landed, narrow32_eq_ok_iff.mp hmonths, zero]
    simp only [TimeUnit.boundary, TimeUnit.fixedNanos?, Int.add_mul, Int.one_mul, Int.mul_zero,
      Int.zero_add]
  · obtain ⟨years, hyears, rfl⟩ := map_eq_ok_iff.mp stepped
    obtain ⟨normal', landed⟩ := of_add_months normal stands moved
    refine ⟨normal', ?_⟩
    rw [landed, narrow32_eq_ok_iff.mp hyears, zero, Int.mul_comm 12, Int.add_zero]
    simp only [TimeUnit.boundary, TimeUnit.fixedNanos?, Int.add_mul, Int.one_mul]

-----------------------------------------------------------------------------------------
-- All points
-----------------------------------------------------------------------------------------

section Fixed

variable {start stop : Timestamp} {interval : Int64} {unit : TimeUnit} {zone : Option String}
  {grid : Grid}

theorem of_fixed (made : Grid.fixed start stop interval unit zone = .ok grid)
    : start.snap interval unit .sunday = .ok grid.start
      ∧ ∃ step, stepOf interval unit = .ok step ∧ grid.step = some step := by
  simp only [Grid.fixed, bind_eq_ok_iff, mapError_eq_ok_iff, pure_eq_ok_iff] at made
  obtain ⟨first, snapped, step, stepped, rfl⟩ := made
  exact ⟨snapped, step, stepped, rfl⟩

/-- The points of a grid are the boundaries from the one that its start was snapped to, by induction
on the number of steps.
-/
theorem boundary_of_point? (normal : start.Normalized)
    (counted : unit = .weeks → interval.toInt * 7 ≤ Int32.maxValue.toInt)
    (made : Grid.fixed start stop interval unit zone = .ok grid)
    : 0 < interval.toInt
      ∧ ∃ first,
          unit.boundary interval.toInt .sunday first ≤ start.instant
          ∧ start.instant < unit.boundary interval.toInt .sunday (first + 1)
          ∧ ∀ number point, grid.point? number = some point →
              point.Normalized
              ∧ point.instant = unit.boundary interval.toInt .sunday (first + number) := by
  obtain ⟨snapped, step, stepped, hstep⟩ := of_fixed made
  obtain ⟨positive, -, normal', first, same, before, after⟩ :=
    (Timestamp.snap_eq_ok_iff normal).mp snapped
  refine ⟨positive, first, same ▸ before, after, fun number => ?_⟩
  induction number with
  | zero =>
      intro point found
      cases found
      exact ⟨normal', by rwa [Int.natCast_zero, Int.add_zero]⟩
  | succ number ih =>
      intro point found
      obtain ⟨previous, hprevious, moved⟩ := of_point?_succ hstep found
      obtain ⟨normal, stands⟩ := ih previous hprevious
      rw [Int.natCast_succ, ← Int.add_assoc]
      exact of_add_step positive counted stepped normal stands moved

/-- A grid is laid from the boundary at or before its start: its points ascend, and the first alone
is not behind the start.
-/
theorem laid_of_fixed (normal : start.Normalized)
    (counted : unit = .weeks → interval.toInt * 7 ≤ Int32.maxValue.toInt)
    (made : Grid.fixed start stop interval unit zone = .ok grid)
    : grid.Laid start := by
  obtain ⟨positive, origin, before, after, stands⟩ := boundary_of_point? normal counted made
  refine ⟨?_, ?_, ?_⟩
  · obtain ⟨normal', same⟩ := stands 0 grid.start rfl
    rw [Timestamp.le_iff_instant normal' normal, same]
    rwa [Int.natCast_zero, Int.add_zero]
  · intro number point found
    obtain ⟨normal', same⟩ := stands (number + 1) point found
    have later := unit.boundary_mono .sunday positive
      (show origin + 1 ≤ origin + (number + 1 : Nat) by omega)
    rw [Timestamp.lt_iff_instant normal normal', same]
    omega
  · intro first second a b ascending ha hb
    obtain ⟨na, ia⟩ := stands first a ha
    obtain ⟨nb, ib⟩ := stands second b hb
    have next := unit.boundary_lt_succ .sunday positive (origin + first)
    have later := unit.boundary_mono .sunday positive
      (show origin + first + 1 ≤ origin + second by omega)
    rw [Timestamp.lt_iff_instant na nb, ia, ib]
    omega

end Fixed

end Grid

end SeriesWire
