import SeriesWire.Instant.Call
import SeriesWire.Proofs.Instant.Shift

/-! Calls that shift a timestamp, and where they are refused.
A span is refused only where no timestamp has the shifted instant, so whatever was added can be
taken away again. A period is arithmetic on civil dates; it is refused where a date on the way
leaves the calendar or a count on the way leaves 32 bits. A refused call leaves the timestamp as it
was.
-/

namespace SeriesWire

open Calendar

/-- The call that shifts in a direction. -/
def Direction.call : Direction → Amount → Timestamp.Call
  | .forward => .add
  | .backward => .subtract

-----------------------------------------------------------------------------------------
-- The way of a period
-----------------------------------------------------------------------------------------

namespace Date

/-- The date that the years and months of a period lead to. -/
def turned (date : Date) (direction : Direction) (years months : Int32) : Date :=
  date.addMonths (direction.sign * (12 * years.toInt + months.toInt))

/-- The day that a period leads to, by its months first and by its days second. -/
def landing (date : Date) (direction : Direction) (years months days : Int32) : Int :=
  (date.turned direction years months).dayNumber + direction.sign * days.toInt

/-- What a period needs: dates of the calendar at each end of its months and days, and 32 bits for
each of its counts.
-/
structure Allows (date : Date) (direction : Direction) (years months days : Int32) : Prop where
  start : supportsDay date.dayNumber = true
  turned : supportsDay (date.turned direction years months).dayNumber = true
  landing : supportsDay (date.landing direction years months days) = true
  yearMonths : FitsInt32 (12 * years.toInt)
  allMonths : FitsInt32 (12 * years.toInt + months.toInt)
  signedMonths : FitsInt32 (direction.sign * (12 * years.toInt + months.toInt))
  signedDays : FitsInt32 (direction.sign * days.toInt)

end Date

namespace Timestamp

variable {t moved : Timestamp} {direction : Direction}

theorem step_shift_eq_ok_iff (direction : Direction) {amount : Amount}
    : t.step (direction.call amount) = (moved, .ok ())
      ↔ t.shift amount direction = .ok moved := by
  rw [step_eq_ok_iff]
  cases direction with
  | forward => exact mapError_eq_ok_iff
  | backward => exact mapError_eq_ok_iff

theorem step_shift_succeeds_iff {amount : Amount}
    : (t.step (direction.call amount)).2 = .ok ()
      ↔ ∃ moved, t.shift amount direction = .ok moved := by
  simp only [step_succeeds_iff, ← step_eq_ok_iff, step_shift_eq_ok_iff]

-----------------------------------------------------------------------------------------
-- Spans
-----------------------------------------------------------------------------------------

/-- The instants of timestamps reach as far as 64 bits count seconds. -/
theorem exists_instant_iff {instant : Int}
    : (∃ t : Timestamp, t.Normalized ∧ t.instant = instant)
      ↔ Int64.minValue.toInt * 1000000000 ≤ instant
        ∧ instant ≤ Int64.maxValue.toInt * 1000000000 + 999999999 := by
  have least := Int64.toInt_minValue
  have greatest := Int64.toInt_maxValue
  simp only [at_instant_iff]
  constructor
  · intro stands
    obtain ⟨_, epoch, counted, -⟩ := stands
    have low := epoch.le_toInt
    have high := epoch.toInt_lt
    omega
  · intro within
    obtain ⟨low, high⟩ := within
    exact ⟨_, Int64.ofInt (instant / 1000000000),
      Int64.toInt_ofInt_of_le (by omega) (by omega), rfl⟩

/-- What was added can be taken away again. -/
theorem shiftSpan_backward (normal : t.Normalized) {nanos : Int}
    (added : t.shiftSpan nanos .forward = .ok moved)
    : moved.shiftSpan nanos .backward = .ok t := by
  obtain ⟨normal', landed⟩ := (shiftSpan_eq_ok_iff normal).mp added
  refine (shiftSpan_eq_ok_iff normal').mpr ⟨normal, ?_⟩
  rw [landed]
  simp only [Direction.sign]
  omega

/-- Shifting by a span is exact. It succeeds wherever a timestamp has the shifted instant, at both
ends of the range and for spans of either sign; and a span that was added can be taken away again.
-/
theorem step_shift_span (normal : t.Normalized) (nanos : Int)
    : (∀ direction : Direction,
        ((t.step (direction.call (.span nanos))).2 = .ok ()
          ↔ Int64.minValue.toInt * 1000000000 ≤ t.instant + direction.sign * nanos
            ∧ t.instant + direction.sign * nanos
              ≤ Int64.maxValue.toInt * 1000000000 + 999999999)
        ∧ (∀ moved,
            t.step (direction.call (.span nanos)) = (moved, .ok ())
            → moved.Normalized ∧ moved.instant = t.instant + direction.sign * nanos)
        ∧ ∀ left cause, t.step (direction.call (.span nanos)) = (left, .error cause) → left = t)
      ∧ ∀ moved,
          t.step (.add (.span nanos)) = (moved, .ok ())
          → moved.step (.subtract (.span nanos)) = (t, .ok ()) := by
  refine ⟨fun direction => ⟨?_, ?_, ?_⟩, ?_⟩
  · rw [step_shift_succeeds_iff, ← exists_instant_iff]
    exact exists_congr fun moved => shiftSpan_eq_ok_iff normal
  · intro moved added
    exact (shiftSpan_eq_ok_iff normal).mp ((step_shift_eq_ok_iff direction).mp added)
  · intro left cause refused
    exact (step_eq_error_iff.mp refused).2
  · intro moved added
    have landed := (step_shift_eq_ok_iff .forward).mp added
    exact (step_shift_eq_ok_iff .backward).mpr (shiftSpan_backward normal landed)

/-- The last nanosecond of the range is left backwards only. A second and a half that lead back from
it over the end of a second lead there again.
-/
theorem step_shift_span_atEnd
    : Normalized ⟨Int64.maxValue, 999999999⟩
      ∧ (step ⟨Int64.maxValue, 999999999⟩ (.add (.span 1))).2 ≠ .ok ()
      ∧ step ⟨Int64.maxValue, 999999999⟩ (.add (.span (-1500000000)))
        = (⟨Int64.maxValue - 1, 499999999⟩, .ok ())
      ∧ step ⟨Int64.maxValue - 1, 499999999⟩ (.subtract (.span (-1500000000)))
        = (⟨Int64.maxValue, 999999999⟩, .ok ()) := by
  have normal : Normalized ⟨Int64.maxValue, 999999999⟩ := ⟨by decide, by decide⟩
  obtain ⟨shifts, _⟩ := step_shift_span normal 1
  obtain ⟨_, restores⟩ := step_shift_span normal (-1500000000)
  have added : step ⟨Int64.maxValue, 999999999⟩ (.add (.span (-1500000000)))
      = (⟨Int64.maxValue - 1, 499999999⟩, .ok ()) :=
    (step_shift_eq_ok_iff .forward).mpr
      ((shiftSpan_eq_ok_iff normal).mpr ⟨⟨by decide, by decide⟩, by decide⟩)
  refine ⟨normal, ?_, added, restores _ added⟩
  intro succeeded
  obtain ⟨_, within⟩ := (shifts .forward).1.mp succeeded
  exact absurd within (by decide)

-----------------------------------------------------------------------------------------
-- Periods
-----------------------------------------------------------------------------------------

/-- Turning a date by months is clamping its day to the length of the month. -/
theorem clampedDay_eq_addMonths {date : Date} (valid : date.Valid) (today : date.dayNumber = t.day)
    (count : Int)
    : clampedDay (monthOf t.day + count) (t.day - monthStart (monthOf t.day))
      = (date.addMonths count).dayNumber := by
  have month := Date.monthLength_monthIndex (date.valid_addMonths valid count).month
  have index := date.monthIndex_addMonths count
  rw [index] at month
  rw [← today, Date.monthOf_dayNumber valid, date.dayNumber_sub_monthStart, clampedDay, month,
    Date.dayNumber, index]
  simp only [Date.addMonths]
  omega

/-- The month that a period turns to lies in a supported year exactly if the date it turns to is one
of the calendar.
-/
theorem supportsDay_addMonths_iff {date : Date} (valid : date.Valid)
    (today : date.dayNumber = t.day) (count : Int)
    : supportsDay (date.addMonths count).dayNumber = true
      ↔ supportsYear ((monthOf t.day + count) / 12) = true := by
  rw [supportsDay_iff_monthOf, Date.monthOf_dayNumber (date.valid_addMonths valid count),
    date.monthIndex_addMonths, ← today, Date.monthOf_dayNumber valid]

/-- Shifting by a period is arithmetic on civil dates: it succeeds if the date allows it, and then
it leaves the time of day as it was.
-/
theorem shiftPeriod_eq_ok_iff_allows (normal : t.Normalized) {date : Date} (valid : date.Valid)
    (today : date.dayNumber = t.day) {years months days : Int32}
    : t.shiftPeriod years months days direction = .ok moved
      ↔ date.Allows direction years months days
        ∧ moved.day = date.landing direction years months days
        ∧ moved.epoch.toInt % 86400 = t.epoch.toInt % 86400
        ∧ moved.nanos = t.nanos := by
  have turned := supportsDay_addMonths_iff valid today
    (direction.sign * (12 * years.toInt + months.toInt))
  rw [shiftPeriod_eq_ok_iff normal, clampedDay_eq_addMonths valid today, ← turned, ← today]
  constructor
  · intro shifted
    obtain ⟨counts, start, turned, landing, day, sameTime⟩ := shifted
    obtain ⟨yearMonths, allMonths, signedMonths, signedDays⟩ := counts
    rw [day] at landing
    refine ⟨?_, day, sameTime⟩
    exact { start, turned, landing, yearMonths, allMonths, signedMonths, signedDays }
  · intro landed
    obtain ⟨allowed, day, sameTime⟩ := landed
    refine ⟨?_, allowed.start, allowed.turned, ?_, day, sameTime⟩
    · exact ⟨allowed.yearMonths, allowed.allMonths, allowed.signedMonths, allowed.signedDays⟩
    · rw [day]
      exact allowed.landing

/-- If a date allows a period, some timestamp has the day that it leads to and the same time of day.
-/
theorem exists_shiftPeriod_iff (normal : t.Normalized) {date : Date} (valid : date.Valid)
    (today : date.dayNumber = t.day) {years months days : Int32}
    : (∃ moved, t.shiftPeriod years months days direction = .ok moved)
      ↔ date.Allows direction years months days := by
  simp only [shiftPeriod_eq_ok_iff_allows normal valid today]
  constructor
  · intro shifted
    obtain ⟨_, allowed, -⟩ := shifted
    exact allowed
  · intro allowed
    exact ⟨_, allowed, (same_time_iff allowed.landing).mp rfl⟩

/-- Shifting by a period is arithmetic on civil dates. A shifted timestamp keeps its time of day and
lies on the day that the period leads its date to: to the same day some months on, or to the last of
that month, and from there by days. The call fails exactly where a date on the way is not in the
calendar or a count on the way, that of the months of the years among them, leaves 32 bits; then it
changes nothing.
-/
theorem step_shift_period (normal : t.Normalized) {date : Date} (valid : date.Valid)
    (today : date.dayNumber = t.day) (years months days : Int32) (direction : Direction)
    : (∀ moved,
        t.step (direction.call (.period years months days)) = (moved, .ok ())
        → moved.epoch.toInt % 86400 = t.epoch.toInt % 86400
          ∧ moved.nanos = t.nanos
          ∧ moved.day
            = (date.addMonths (direction.sign * (12 * years.toInt + months.toInt))).dayNumber
              + direction.sign * days.toInt)
      ∧ ((t.step (direction.call (.period years months days))).2 = .ok ()
          ↔ date.Allows direction years months days)
      ∧ ∀ left cause,
          t.step (direction.call (.period years months days)) = (left, .error cause)
          → left = t := by
  refine ⟨?_, ?_, ?_⟩
  · intro moved shifted
    have landed := (step_shift_eq_ok_iff direction).mp shifted
    obtain ⟨-, day, second, nanos⟩ := (shiftPeriod_eq_ok_iff_allows normal valid today).mp landed
    exact ⟨second, nanos, day⟩
  · rw [step_shift_succeeds_iff]
    exact exists_shiftPeriod_iff normal valid today
  · intro left cause refused
    exact (step_eq_error_iff.mp refused).2

/-- Thirteen months less a year are taken away from the end of March 1968, which leads to the end of
February, and then a day. The last second of the day stays what it is.
-/
theorem step_shift_period_leapYear
    : Normalized ⟨-55296001, 999999999⟩
      ∧ Date.Valid ⟨1968, 3, 31⟩
      ∧ Date.dayNumber ⟨1968, 3, 31⟩ = day ⟨-55296001, 999999999⟩
      ∧ ∃ moved,
          step ⟨-55296001, 999999999⟩ (.subtract (.period (-1) 13 1)) = (moved, .ok ())
          ∧ moved.epoch.toInt % 86400 = 86399
          ∧ moved.nanos = 999999999
          ∧ moved.day = Date.dayNumber ⟨1968, 2, 28⟩ := by
  have normal : Normalized ⟨-55296001, 999999999⟩ := ⟨by decide, by decide⟩
  have valid : Date.Valid ⟨1968, 3, 31⟩ := ⟨by decide, by decide⟩
  have today : Date.dayNumber ⟨1968, 3, 31⟩ = day ⟨-55296001, 999999999⟩ := by decide
  obtain ⟨leads, succeeds, _⟩ := step_shift_period normal valid today (-1) 13 1 .backward
  have allowed : Date.Allows ⟨1968, 3, 31⟩ .backward (-1) 13 1 := {
    start := by decide
    turned := by decide
    landing := by decide
    yearMonths := by decide
    allMonths := by decide
    signedMonths := by decide
    signedDays := by decide }
  have shifted := Prod.ext (rfl : _ = (step _ _).1) (succeeds.mpr allowed)
  exact ⟨normal, valid, today, _, shifted, leads _ shifted⟩

/-- The months of the years are counted before the other months are added. These make four months
together, from one date of the calendar to another; but they are refused, since those of the years
alone leave 32 bits.
-/
theorem step_shift_yearsAlone
    : (ofEpoch 0).step (.add (.period 178956971 (-2147483648) 0))
        = (ofEpoch 0, .error (.shift (.monthCountOverflow 178956971 (-2147483648))))
      ∧ 12 * (178956971 : Int32).toInt + (-2147483648 : Int32).toInt = 4
      ∧ Date.dayNumber ⟨1970, 1, 1⟩ = (ofEpoch 0).day
      ∧ Date.turned ⟨1970, 1, 1⟩ .forward 178956971 (-2147483648) = ⟨1970, 5, 1⟩
      ∧ Date.landing ⟨1970, 1, 1⟩ .forward 178956971 (-2147483648) 0
        = Date.dayNumber ⟨1970, 5, 1⟩
      ∧ supportsDay (Date.dayNumber ⟨1970, 1, 1⟩) = true
      ∧ supportsDay (Date.dayNumber ⟨1970, 5, 1⟩) = true :=
  ⟨rfl, by decide, by decide, by decide, by decide, by decide, by decide⟩

end Timestamp

end SeriesWire
