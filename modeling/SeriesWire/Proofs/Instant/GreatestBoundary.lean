import Mathlib.Order.Bounds.Defs
import SeriesWire.Instant.Call
import SeriesWire.Proofs.Instant.Snapping

/-! Snapping finds the greatest boundary that is not behind a timestamp.
Boundaries are told here by the calendar, not by their numbers: by multiples of a length, weekdays
and first days of months. Because it finds the greatest, snapping keeps the order of timestamps and
changes no boundary, though it may not be able to tell the weekday of a boundary that it has found
itself.
-/

namespace SeriesWire

open Calendar

/-- The first anchor is the first of the days with its weekday that are not before the epoch. -/
theorem firstAnchor_isLeast (anchor : Weekday)
    : IsLeast {day | 0 ≤ day ∧ (Date.ofDayNumber day).weekday = anchor} (firstAnchor anchor) := by
  have range := anchor.daysFromSunday_range
  constructor
  · change 0 ≤ firstAnchor anchor ∧ (Date.ofDayNumber (firstAnchor anchor)).weekday = anchor
    rw [Date.weekday_ofDayNumber_eq_iff, firstAnchor]
    omega
  · intro day candidate
    obtain ⟨begun, weekday⟩ := candidate
    rw [Date.weekday_ofDayNumber_eq_iff] at weekday
    rw [firstAnchor]
    omega

namespace TimeUnit

-----------------------------------------------------------------------------------------
-- Boundaries by the calendar
-----------------------------------------------------------------------------------------

/-- The instants that intervals of a unit start at.
Those of a fixed length are counted from the epoch. Weeks start on their anchor weekday and are
counted from the first one that is not before the epoch. Months and years start on the first of a
month and are counted from January of year zero.
-/
inductive IsBoundary (interval : Int) (anchor : Weekday) : TimeUnit → Int → Prop where
  | fixed {unit : TimeUnit} {length instant : Int} (fixed : unit.fixedNanos? = some length)
    (multiple : interval * length ∣ instant)
    : IsBoundary interval anchor unit instant
  | week {first day : Int}
    (counted : IsLeast {day | 0 ≤ day ∧ (Date.ofDayNumber day).weekday = anchor} first)
    (weekday : (Date.ofDayNumber day).weekday = anchor) (multiple : 7 * interval ∣ day - first)
    : IsBoundary interval anchor .weeks (midnight day)
  | month {date : Date} (valid : date.Valid) (first : date.day = 1)
    (multiple : interval ∣ date.monthIndex)
    : IsBoundary interval anchor .months (midnight date.dayNumber)
  | year {date : Date} (valid : date.Valid) (first : date.day = 1)
    (multiple : 12 * interval ∣ date.monthIndex)
    : IsBoundary interval anchor .years (midnight date.dayNumber)

variable {unit : TimeUnit} {interval instant : Int} {anchor : Weekday}

theorem isBoundary_fixed_iff {length : Int} (fixed : unit.fixedNanos? = some length)
    : unit.IsBoundary interval anchor instant
      ↔ ∃ number, instant = number * (length * interval) := by
  constructor
  · intro boundary
    cases boundary with
    | fixed fixed' multiple =>
        obtain ⟨number, rfl⟩ := multiple
        obtain rfl := Option.some.inj (fixed.symm.trans fixed')
        exact ⟨number, by rw [Int.mul_comm interval, Int.mul_comm number]⟩
    | week _ _ _ => cases fixed
    | month _ _ _ => cases fixed
    | year _ _ _ => cases fixed
  · intro numbered
    obtain ⟨number, rfl⟩ := numbered
    exact .fixed fixed ⟨number, by rw [Int.mul_comm interval, Int.mul_comm number]⟩

theorem isBoundary_weeks_iff
    : TimeUnit.weeks.IsBoundary interval anchor instant
      ↔ ∃ number, instant = midnight (firstAnchor anchor + number * interval * 7) := by
  have least := firstAnchor_isLeast anchor
  have weeks (number : Int) : number * interval * 7 = 7 * interval * number := by
    rw [Int.mul_comm number, Int.mul_right_comm, Int.mul_comm interval]
  constructor
  · intro boundary
    cases boundary with
    | fixed fixed _ => cases fixed
    | @week first day counted _ multiple =>
        obtain ⟨number, distance⟩ := multiple
        have same : first = firstAnchor anchor :=
          Int.le_antisymm (counted.2 least.1) (least.2 counted.1)
        refine ⟨number, congrArg midnight ?_⟩
        rw [weeks, ← distance, same]
        omega
  · intro numbered
    obtain ⟨number, rfl⟩ := numbered
    refine .week least ?_ ⟨number, ?_⟩
    · have anchored := Date.weekday_ofDayNumber_eq_iff.mp least.1.2
      rw [Date.weekday_ofDayNumber_eq_iff, ← anchored]
      omega
    · rw [weeks]
      omega

/-- Counting first days of months is counting months. -/
theorem exists_first_iff {width : Int}
    : (∃ date : Date,
        date.Valid ∧ date.day = 1 ∧ width ∣ date.monthIndex ∧ midnight date.dayNumber = instant)
      ↔ ∃ number, instant = midnight (monthStart (number * width)) := by
  constructor
  · intro dated
    obtain ⟨date, -, first, ⟨number, index⟩, rfl⟩ := dated
    exact ⟨number, by rw [Date.dayNumber_of_first first, index, Int.mul_comm]⟩
  · intro numbered
    obtain ⟨number, rfl⟩ := numbered
    obtain ⟨date, valid, first, index⟩ := Date.exists_first (number * width)
    refine ⟨date, valid, first, ⟨number, ?_⟩, ?_⟩
    · rw [index, Int.mul_comm]
    · rw [Date.dayNumber_of_first first, index]

theorem isBoundary_months_iff
    : TimeUnit.months.IsBoundary interval anchor instant
      ↔ ∃ number, instant = midnight (monthStart (number * interval)) := by
  rw [← exists_first_iff]
  constructor
  · intro boundary
    cases boundary with
    | fixed fixed _ => cases fixed
    | month valid first multiple => exact ⟨_, valid, first, multiple, rfl⟩
  · intro dated
    obtain ⟨date, valid, first, multiple, rfl⟩ := dated
    exact .month valid first multiple

theorem isBoundary_years_iff
    : TimeUnit.years.IsBoundary interval anchor instant
      ↔ ∃ number, instant = midnight (monthStart (number * (interval * 12))) := by
  rw [← exists_first_iff, Int.mul_comm interval]
  constructor
  · intro boundary
    cases boundary with
    | fixed fixed _ => cases fixed
    | year valid first multiple => exact ⟨_, valid, first, multiple, rfl⟩
  · intro dated
    obtain ⟨date, valid, first, multiple, rfl⟩ := dated
    exact .year valid first multiple

/-- The boundaries that the calendar tells are those that have a number. -/
theorem isBoundary_iff
    : unit.IsBoundary interval anchor instant
      ↔ ∃ number, instant = unit.boundary interval anchor number := by
  rcases unit.fixed_or_calendar with ⟨length, fixed, -⟩ | rfl | rfl | rfl
  · simp only [isBoundary_fixed_iff fixed, boundary_of_fixed fixed]
  · exact isBoundary_weeks_iff
  · exact isBoundary_months_iff
  · exact isBoundary_years_iff

end TimeUnit

namespace Timestamp

variable {t snapped : Timestamp} {interval : Int64} {unit : TimeUnit} {anchor : Weekday}

-----------------------------------------------------------------------------------------
-- The greatest boundary
-----------------------------------------------------------------------------------------

/-- The last of the numbered boundaries that are not behind a timestamp is the greatest of them,
since boundaries ascend with their numbers.
-/
theorem isFloor_iff_isGreatest (positive : 0 < interval.toInt)
    : IsFloor (unit.boundary interval.toInt anchor) t snapped
      ↔ snapped.Normalized
        ∧ IsGreatest
            {instant | unit.IsBoundary interval.toInt anchor instant ∧ instant ≤ t.instant}
            snapped.instant := by
  refine and_congr_right fun normal => ?_
  constructor
  · intro floor
    obtain ⟨number, stands, before, after⟩ := floor
    refine ⟨⟨TimeUnit.isBoundary_iff.mpr ⟨number, stands⟩, before⟩, ?_⟩
    intro instant candidate
    obtain ⟨boundary, upTo⟩ := candidate
    obtain ⟨other, rfl⟩ := TimeUnit.isBoundary_iff.mp boundary
    rcases Int.lt_or_le number other with behind | notBehind
    · have later := unit.boundary_mono anchor positive (show number + 1 ≤ other by omega)
      omega
    · rw [stands]
      exact unit.boundary_mono anchor positive notBehind
  · intro last
    obtain ⟨⟨boundary, before⟩, greatest⟩ := last
    obtain ⟨number, stands⟩ := TimeUnit.isBoundary_iff.mp boundary
    refine ⟨number, stands, before, ?_⟩
    have next := unit.boundary_lt_succ anchor positive number
    rcases Int.lt_or_le t.instant (unit.boundary interval.toInt anchor (number + 1))
      with after | upTo
    · exact after
    · have above := greatest ⟨TimeUnit.isBoundary_iff.mpr ⟨number + 1, rfl⟩, upTo⟩
      omega

theorem step_snap_eq_ok_iff
    : t.step (.snap interval unit anchor) = (snapped, .ok ())
      ↔ t.snap interval unit anchor = .ok snapped :=
  step_eq_ok_iff.trans mapError_eq_ok_iff

/-- Later timestamps have later boundaries. -/
theorem snap_mono {later snappedLater : Timestamp} (normal : t.Normalized)
    (normalLater : later.Normalized) (h : t ≤ later)
    (first : t.snap interval unit anchor = .ok snapped)
    (second : later.snap interval unit anchor = .ok snappedLater)
    : snapped ≤ snappedLater := by
  obtain ⟨positive, -, floor⟩ := (snap_eq_ok_iff normal).mp first
  obtain ⟨-, -, floorLater⟩ := (snap_eq_ok_iff normalLater).mp second
  obtain ⟨normal', ⟨boundary, before⟩, -⟩ := (isFloor_iff_isGreatest positive).mp floor
  obtain ⟨normalLater', -, greatest⟩ := (isFloor_iff_isGreatest positive).mp floorLater
  rw [le_iff_instant normal normalLater] at h
  rw [le_iff_instant normal' normalLater']
  exact greatest ⟨boundary, Int.le_trans before h⟩

/-- Snapping leaves the greatest boundary that is not behind the timestamp. It fails only where the
interval is not positive, where the calendar does not reach as far as the unit asks for, and where
no timestamp stands at that boundary; then it changes nothing. A later timestamp is never snapped to
an earlier boundary.
-/
theorem step_snap_isGreatest (normal : t.Normalized) (interval : Int64) (unit : TimeUnit)
    (anchor : Weekday)
    : (∀ snapped,
        t.step (.snap interval unit anchor) = (snapped, .ok ())
        ↔ 1 ≤ interval.toInt
          ∧ unit.Reaches t snapped
          ∧ snapped.Normalized
          ∧ IsGreatest
              {instant | unit.IsBoundary interval.toInt anchor instant ∧ instant ≤ t.instant}
              snapped.instant)
      ∧ (∀ later snapped snappedLater,
          later.Normalized
          → t ≤ later
          → t.step (.snap interval unit anchor) = (snapped, .ok ())
          → later.step (.snap interval unit anchor) = (snappedLater, .ok ())
          → snapped ≤ snappedLater)
      ∧ ∀ left cause, t.step (.snap interval unit anchor) = (left, .error cause) → left = t := by
  refine ⟨?_, ?_, ?_⟩
  · intro snapped
    rw [step_snap_eq_ok_iff, snap_eq_ok_iff normal]
    refine and_congr_right fun positive => and_congr_right fun _ => ?_
    exact isFloor_iff_isGreatest positive
  · intro later snapped snappedLater normalLater h first second
    exact snap_mono normal normalLater h (step_snap_eq_ok_iff.mp first)
      (step_snap_eq_ok_iff.mp second)
  · intro left cause refused
    exact (step_eq_error_iff.mp refused).2

/-- Fortnights that start on a Monday are counted from 5 January 1970. The last nanosecond before
the epoch lies in the one before, which starts on 22 December 1969.
-/
theorem step_snap_isGreatest_fortnight
    : Normalized ⟨-1, 999999999⟩
      ∧ step ⟨-1, 999999999⟩ (.snap 2 .weeks .monday) = (ofEpoch (-864000), .ok ())
      ∧ IsGreatest {instant | TimeUnit.weeks.IsBoundary 2 .monday instant ∧ instant ≤ -1}
          (-864000000000000) := by
  have normal : Normalized ⟨-1, 999999999⟩ := ⟨by decide, by decide⟩
  have snapped : step ⟨-1, 999999999⟩ (.snap 2 .weeks .monday) = (ofEpoch (-864000), .ok ()) := rfl
  obtain ⟨finds, -, -⟩ := step_snap_isGreatest normal 2 .weeks .monday
  obtain ⟨-, -, -, greatest⟩ := (finds _).mp snapped
  exact ⟨normal, snapped, greatest⟩

-----------------------------------------------------------------------------------------
-- Snapping again
-----------------------------------------------------------------------------------------

/-- A boundary is its own greatest boundary. -/
theorem IsFloor.again (positive : 0 < interval.toInt)
    (floor : IsFloor (unit.boundary interval.toInt anchor) t snapped)
    : IsFloor (unit.boundary interval.toInt anchor) snapped snapped := by
  obtain ⟨normal, number, stands, -, -⟩ := floor
  refine ⟨normal, number, stands, Int.le_refl _, ?_⟩
  rw [stands]
  exact unit.boundary_lt_succ anchor positive number

/-- Weeks are not counted from a day whose weekday is not found. -/
theorem snap_weeks_of_weekday_error (positive : 0 < interval.toInt) (anchor : Weekday)
    {cause : CalendarError} (unknown : weekday t.day = .error cause)
    : t.snap interval .weeks anchor = .error (.unsupported cause) := by
  have days : t.epoch.toInt / 86400 = t.day := rfl
  unfold snap
  split
  · omega
  · simp only [TimeUnit.fixedNanos?, snapWeeks, days, unknown]
    rfl

/-- Snapping a boundary to the same interval finds the boundary again, except that the weekday of a
week's start is not found where the calendar does not reach it. It never moves the boundary.
-/
theorem step_snap_again (normal : t.Normalized)
    (first : t.step (.snap interval unit anchor) = (snapped, .ok ()))
    : snapped.step (.snap interval unit anchor)
      = (snapped,
          if unit = .weeks ∧ supportsDay snapped.day = false then
            .error (.snap (.unsupported (.unsupportedInstant snapped.epoch.toInt 0)))
          else .ok ()) := by
  obtain ⟨positive, reached, floor⟩ := (snap_eq_ok_iff normal).mp (step_snap_eq_ok_iff.mp first)
  have again := floor.again positive
  obtain ⟨normal', number, stands, -, -⟩ := floor
  split
  · rename_i beyond
    obtain ⟨rfl, unsupported⟩ := beyond
    obtain ⟨-, second, -⟩ := (instant_eq_midnight_iff normal').mp stands
    have counted : snapped.epoch.toInt = 86400 * snapped.day := by
      rw [day]
      omega
    have refused := snap_weeks_of_weekday_error positive anchor
      (weekday_of_unsupported unsupported counted)
    exact step_eq_error_iff.mpr ⟨congrArg (Except.mapError CallError.snap) refused, rfl⟩
  · rename_i within
    have reachedAgain : unit.Reaches snapped snapped := by
      cases unit with
      | weeks => simpa [TimeUnit.Reaches] using within
      | months => exact ⟨reached.2, reached.2⟩
      | years => exact ⟨reached.2, reached.2⟩
      | _ => trivial
    rw [step_snap_eq_ok_iff, snap_eq_ok_iff normal']
    exact ⟨positive, reachedAgain, again⟩

/-- Five years from January of year zero on: 1969 lies in those that start with 1965, before the
epoch.
-/
theorem step_snap_again_lustrum
    : Normalized ⟨-90000, 123⟩
      ∧ step ⟨-90000, 123⟩ (.snap 5 .years .sunday) = (ofEpoch (-157766400), .ok ())
      ∧ (ofEpoch (-157766400)).step (.snap 5 .years .sunday) = (ofEpoch (-157766400), .ok ()) := by
  have normal : Normalized ⟨-90000, 123⟩ := ⟨by decide, by decide⟩
  have snapped : step ⟨-90000, 123⟩ (.snap 5 .years .sunday) = (ofEpoch (-157766400), .ok ()) := rfl
  exact ⟨normal, snapped, step_snap_again normal snapped⟩

/-- A hundred million weeks before the first Sunday there is no date of the calendar. The epoch is
snapped to that day, but the day itself is not snapped any more.
-/
theorem step_snap_beyond_calendar
    : (ofEpoch 0).Normalized
      ∧ (ofEpoch 0).step (.snap 100000000 .weeks .sunday) = (ofEpoch (-60479999740800), .ok ())
      ∧ (ofEpoch (-60479999740800)).step (.snap 100000000 .weeks .sunday)
        = (ofEpoch (-60479999740800),
            .error (.snap (.unsupported (.unsupportedInstant (-60479999740800) 0)))) :=
  ⟨⟨by decide, by decide⟩, rfl, rfl⟩

end Timestamp

end SeriesWire
