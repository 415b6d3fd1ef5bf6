import SeriesWire.Instant.Shift
import SeriesWire.Proofs.Calendar.Reach
import SeriesWire.Proofs.Instant.Order

/-! When a shift succeeds, and what it does to a timestamp.
A span moves the exact instant by its length. A period moves the civil day and keeps the time of
day.
-/

namespace SeriesWire

open Calendar

/-- A number that 32 bits can hold. -/
def FitsInt32 (n : Int) : Prop :=
  Int32.minValue.toInt ≤ n ∧ n ≤ Int32.maxValue.toInt

instance (n : Int) : Decidable (FitsInt32 n) :=
  inferInstanceAs (Decidable (_ ∧ _))

theorem exists_toInt_iff {n : Int}
    : (∃ x : Int32, x.toInt = n) ↔ FitsInt32 n := by
  have least := Int32.toInt_minValue
  have greatest := Int32.toInt_maxValue
  constructor
  · rintro ⟨x, rfl⟩
    have low := x.le_toInt
    have high := x.toInt_lt
    rw [FitsInt32]
    omega
  · rintro ⟨low, high⟩
    exact ⟨Int32.ofInt n, Int32.toInt_ofInt_of_le (by omega) (by omega)⟩

-----------------------------------------------------------------------------------------
-- Spans
-----------------------------------------------------------------------------------------

/-- Division towards zero gives a quotient and a rest that are never against the sign of the number,
and the rest is smaller than the unit on both sides of zero.
-/
theorem truncated_parts (total : Int) {unit : Int} (positive : 0 < unit)
    : unit * total.tdiv unit + total.tmod unit = total
      ∧ (0 ≤ total → 0 ≤ total.tdiv unit ∧ 0 ≤ total.tmod unit)
      ∧ (total ≤ 0 → total.tdiv unit ≤ 0 ∧ total.tmod unit ≤ 0)
      ∧ -unit < total.tmod unit
      ∧ total.tmod unit < unit := by
  refine ⟨Int.mul_tdiv_add_tmod total unit, ?_, ?_, Int.lt_tmod_of_pos total positive,
    Int.tmod_lt_of_pos total positive⟩
  · intro natural
    exact ⟨Int.tdiv_nonneg natural (Int.le_of_lt positive), Int.tmod_nonneg unit natural⟩
  · intro negative
    have mirrored : 0 ≤ -total := by omega
    have whole := Int.tdiv_nonneg mirrored (Int.le_of_lt positive)
    have rest := Int.tmod_nonneg unit mirrored
    rw [Int.neg_tdiv] at whole
    rw [Int.neg_tmod] at rest
    exact ⟨by omega, by omega⟩

/-- A signed span is made of signed whole seconds and a rest of less than a second, none of them
against the others.
-/
theorem Direction.span_parts (direction : Direction) (nanos : Int)
    : 1000000000 * (direction.sign * Amount.wholeSeconds nanos)
        + direction.sign * Amount.restNanos nanos = direction.sign * nanos
      ∧ (0 ≤ direction.sign * Amount.wholeSeconds nanos
          ∧ 0 ≤ direction.sign * Amount.restNanos nanos
          ∧ direction.sign * Amount.restNanos nanos < 1000000000
        ∨ direction.sign * Amount.wholeSeconds nanos ≤ 0
          ∧ direction.sign * Amount.restNanos nanos ≤ 0
          ∧ -1000000000 < direction.sign * Amount.restNanos nanos) := by
  have parts := truncated_parts nanos (show (0 : Int) < 1000000000 by decide)
  simp only [Amount.wholeSeconds, Amount.restNanos]
  cases direction with
  | forward =>
      simp only [sign]
      omega
  | backward =>
      simp only [sign]
      omega

namespace Timestamp

variable {t moved : Timestamp} {direction : Direction}

/-- Moving by a span is exact, and refused only where no timestamp has the shifted instant. -/
theorem shiftSpan_eq_ok_iff (normal : t.Normalized) {nanos : Int}
    : t.shiftSpan nanos direction = .ok moved
      ↔ moved.Normalized ∧ moved.instant = t.instant + direction.sign * nanos := by
  obtain ⟨total, signs⟩ := direction.span_parts nanos
  simp only [shiftSpan, bind_eq_ok_iff, mapError_eq_ok_iff, narrow64_eq_ok_iff, pure_eq_ok_iff]
  generalize direction.sign * Amount.wholeSeconds nanos = whole at *
  generalize direction.sign * Amount.restNanos nanos = rest at *
  have seconds : (t.instant + direction.sign * nanos) / 1000000000
      = t.epoch.toInt + whole + (t.nanos.toInt + rest) / 1000000000 := by
    rw [instant]
    omega
  have left : (t.instant + direction.sign * nanos) % 1000000000
      = (t.nanos.toInt + rest) % 1000000000 := by
    rw [instant]
    omega
  rw [at_instant_iff, seconds, left]
  constructor
  · rintro ⟨first, hfirst, epoch, hepoch, rfl⟩
    rw [hfirst] at hepoch
    exact ⟨epoch, hepoch, rfl⟩
  · rintro ⟨epoch, hepoch, rfl⟩
    obtain ⟨positive, below⟩ := normal
    have start := And.intro t.epoch.le_toInt t.epoch.toInt_lt
    have ends := And.intro epoch.le_toInt epoch.toInt_lt
    -- The carry has the sign of the whole seconds or none, so they fit if the sum does.
    have first : (Int64.ofInt (t.epoch.toInt + whole)).toInt = t.epoch.toInt + whole := by
      apply Int64.toInt_ofInt_of_le
      · omega
      · omega
    refine ⟨_, first, epoch, ?_, rfl⟩
    rw [first, hepoch]

-----------------------------------------------------------------------------------------
-- Periods
-----------------------------------------------------------------------------------------

/-- The day that a timestamp lies in, counted from 1 January 1970. -/
def day (t : Timestamp) : Int :=
  t.epoch.toInt / 86400

/-- The civil time of a normalized timestamp has its day, its second of the day and its nanoseconds.
-/
theorem moment_eq_ok_iff (normal : t.Normalized) {moment : Moment}
    : t.moment = .ok moment
      ↔ supportsDay t.day = true ∧ ⟨t.day, t.epoch.toInt % 86400, t.nanos.toInt⟩ = moment :=
  Moment.ofInstant_eq_ok_iff normal.1 normal.2

/-- The months of a period are counted if 32 bits hold every count on the way. -/
theorem periodMonths_eq_ok_iff {years months : Int32} {count : Int}
    : periodMonths years months direction = .ok count
      ↔ FitsInt32 (12 * years.toInt)
        ∧ FitsInt32 (12 * years.toInt + months.toInt)
        ∧ FitsInt32 (direction.sign * (12 * years.toInt + months.toInt))
        ∧ direction.sign * (12 * years.toInt + months.toInt) = count := by
  simp only [periodMonths, bind_eq_ok_iff, narrow32_eq_ok_iff, pure_eq_ok_iff, ← exists_toInt_iff]
  rw [Int.mul_comm 12, Int.mul_comm direction.sign]
  constructor
  · rintro ⟨yearMonths, hyears, total, htotal, signed, hsigned, rfl⟩
    rw [hyears] at htotal
    rw [htotal] at hsigned
    exact ⟨⟨yearMonths, hyears⟩, ⟨total, htotal⟩, ⟨signed, hsigned⟩, hsigned.symm⟩
  · rintro ⟨⟨yearMonths, hyears⟩, ⟨total, htotal⟩, ⟨signed, hsigned⟩, rfl⟩
    refine ⟨yearMonths, hyears, total, ?_, signed, ?_, hsigned⟩
    · rw [hyears, htotal]
    · rw [htotal, hsigned]

/-- On a supported day nothing but a leap second comes after the end of the calendar. -/
theorem precedesEnd_of_supportsDay {moment : Moment} (supported : supportsDay moment.day = true)
    (second : moment.second < 86400) (nanos : moment.nanos < 1000000000)
    : moment.precedesEnd = true := by
  obtain ⟨_, before⟩ := of_decide_eq_true supported
  refine decide_eq_true ?_
  rw [Moment.epoch]
  omega

/-- The same time of another supported day. -/
theorem same_time_iff {day : Int} (supported : supportsDay day = true)
    : (⟨Int64.ofInt (86400 * day + t.epoch.toInt % 86400), Int64.ofInt t.nanos.toInt⟩ : Timestamp)
        = moved
      ↔ moved.day = day
        ∧ moved.epoch.toInt % 86400 = t.epoch.toInt % 86400
        ∧ moved.nanos = t.nanos := by
  have second := Int.emod_nonneg t.epoch.toInt (show (86400 : Int) ≠ 0 by decide)
  have below := Int.emod_lt_of_pos t.epoch.toInt (show (0 : Int) < 86400 by decide)
  have landed := toInt_ofInt_of_supportsDay supported second below
  constructor
  · rintro rfl
    refine ⟨?_, ?_, Int64.ofInt_toInt t.nanos⟩
    · simp only [Timestamp.day, landed]
      omega
    · simp only [landed]
      omega
  · rintro ⟨sameDay, sameSecond, sameNanos⟩
    obtain ⟨epoch, nanos⟩ := moved
    simp only [Timestamp.day] at sameDay sameSecond sameNanos
    have counted : Int64.ofInt (86400 * day + t.epoch.toInt % 86400) = epoch := by
      apply Int64.toInt_inj.mp
      omega
    rw [counted, Int64.ofInt_toInt, sameNanos]

/-- A period moves the day by months and then by days, and leaves the time of day alone. It is
refused only where a count leaves 32 bits or where a date on the way leaves the calendar.
-/
theorem shiftPeriod_eq_ok_iff (normal : t.Normalized) {years months days : Int32}
    : t.shiftPeriod years months days direction = .ok moved
      ↔ (FitsInt32 (12 * years.toInt)
          ∧ FitsInt32 (12 * years.toInt + months.toInt)
          ∧ FitsInt32 (direction.sign * (12 * years.toInt + months.toInt))
          ∧ FitsInt32 (direction.sign * days.toInt))
        ∧ supportsDay t.day = true
        ∧ supportsYear
            ((monthOf t.day + direction.sign * (12 * years.toInt + months.toInt)) / 12) = true
        ∧ supportsDay moved.day = true
        ∧ moved.day
          = clampedDay (monthOf t.day + direction.sign * (12 * years.toInt + months.toInt))
              (t.day - monthStart (monthOf t.day))
            + direction.sign * days.toInt
        ∧ moved.epoch.toInt % 86400 = t.epoch.toInt % 86400
        ∧ moved.nanos = t.nanos := by
  simp only [shiftPeriod, bind_eq_ok_iff, mapError_eq_ok_iff, narrow32_eq_ok_iff, ↓throw_bind,
    ↓check_eq_ok_iff, pure_eq_ok_iff, moment_eq_ok_iff normal]
  simp only [Moment.monthIndex, Moment.epoch, periodMonths_eq_ok_iff, Bool.not_eq_true,
    Bool.not_eq_false', and_assoc, exists_and_left, exists_eq_left']
  generalize clampedDay _ _ = turned
  rw [Int.mul_comm days.toInt]
  have below := Int.emod_lt_of_pos t.epoch.toInt (show (0 : Int) < 86400 by decide)
  constructor
  · rintro ⟨start, yearMonths, allMonths, signedMonths, year, step, hstep, supported, -, landed⟩
    rw [hstep] at supported landed
    obtain ⟨day, second, nanos⟩ := (same_time_iff supported).mp landed
    have signedDays := exists_toInt_iff.mp ⟨step, hstep⟩
    exact ⟨yearMonths, allMonths, signedMonths, signedDays, start, year, day ▸ supported, day,
      second, nanos⟩
  · rintro ⟨yearMonths, allMonths, signedMonths, signedDays, start, year, supported, day, second,
      nanos⟩
    obtain ⟨step, hstep⟩ := exists_toInt_iff.mpr signedDays
    rw [day] at supported
    rw [← hstep] at supported day
    -- Without leap seconds the day alone tells whether the end is near.
    have early : Moment.precedesEnd ⟨turned + step.toInt, t.epoch.toInt % 86400, t.nanos.toInt⟩
        = true :=
      precedesEnd_of_supportsDay supported below normal.2
    refine ⟨start, yearMonths, allMonths, signedMonths, year, step, hstep, supported, ?_, ?_⟩
    · rintro ⟨-, late⟩
      rw [early] at late
      cases late
    · exact (same_time_iff supported).mpr ⟨day, second, nanos⟩

/-- Where a shift by a period leads, if it succeeds: from one supported day to another. -/
theorem day_of_shiftPeriod (normal : t.Normalized) {years months days : Int32}
    (h : t.shiftPeriod years months days direction = .ok moved)
    : supportsDay t.day = true
      ∧ supportsDay moved.day = true
      ∧ moved.nanos = t.nanos
      ∧ moved.epoch.toInt % 86400 = t.epoch.toInt % 86400
      ∧ moved.day
        = clampedDay (monthOf t.day + direction.sign * (12 * years.toInt + months.toInt))
            (t.day - monthStart (monthOf t.day))
          + direction.sign * days.toInt := by
  obtain ⟨-, start, -, supported, day, second, nanos⟩ := (shiftPeriod_eq_ok_iff normal).mp h
  exact ⟨start, supported, nanos, second, day⟩

/-- Shifting by no months leaves the day in its month. -/
theorem clampedDay_monthOf (day : Int)
    : clampedDay (monthOf day) (day - monthStart (monthOf day)) = day := by
  have found := monthStart_monthOf day
  rw [clampedDay, monthLength]
  omega

/-- The first day of a month is in every month. -/
theorem clampedDay_zero (index : Int) : clampedDay index 0 = monthStart index := by
  have longer := monthStart_lt_succ index
  rw [clampedDay, monthLength]
  omega

end Timestamp

end SeriesWire
