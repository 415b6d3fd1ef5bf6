import SeriesWire.Proofs.Instant.Boundaries

/-! When snapping succeeds, and what it finds.
It finds the last boundary that is not behind the timestamp. It fails only where no timestamp stands
at that boundary, or where weeks, months or years are counted beyond the reach of the calendar.
-/

namespace SeriesWire

open Calendar

/-- The greatest multiple that is not above a number is the one whose successor is above it. -/
theorem floorMultiple_eq_iff {width : Int} (positive : 0 < width) {n number : Int}
    : floorMultiple n width = number * width ↔ number * width ≤ n ∧ n < (number + 1) * width := by
  have before := Int.ediv_mul_le n (Int.ne_of_gt positive)
  have after := Int.lt_ediv_add_one_mul_self n positive
  constructor
  · intro h
    rw [floorMultiple] at h
    obtain rfl := Int.eq_of_mul_eq_mul_right (Int.ne_of_gt positive) h
    exact ⟨before, after⟩
  · rintro ⟨begun, unended⟩
    have lower := Int.le_ediv_of_mul_le positive begun
    have upper := Int.ediv_lt_of_lt_mul positive unended
    have same : n / width = number := by omega
    rw [floorMultiple, same]

namespace Timestamp

variable {t snapped : Timestamp}

-----------------------------------------------------------------------------------------
-- One kind of unit
-----------------------------------------------------------------------------------------

theorem snapFixed_eq_ok_iff {width : Int}
    : t.snapFixed width = .ok snapped
      ↔ snapped.Normalized ∧ snapped.instant = floorMultiple t.instant width := by
  simp only [snapFixed, bind_eq_ok_iff, mapError_eq_ok_iff, narrow64_eq_ok_iff, pure_eq_ok_iff,
    at_instant_iff]

/-- Weeks are counted from the first anchor, so the weekday of a day does not matter to its week. -/
theorem snapWeeks_eq_ok_iff {interval : Int} {anchor : Weekday}
    : t.snapWeeks interval anchor = .ok snapped
      ↔ supportsDay t.day = true
        ∧ snapped.Normalized
        ∧ snapped.instant
          = midnight (firstAnchor anchor
            + floorMultiple ((t.day - firstAnchor anchor) / 7) interval * 7) := by
  have week : (t.day
      - ((Date.ofDayNumber t.day).weekday.daysFromSunday - anchor.daysFromSunday) % 7
      - firstAnchor anchor) / 7 = (t.day - firstAnchor anchor) / 7 := by
    have current := Date.weekday_ofDayNumber_eq_iff.mp (Eq.refl (Date.ofDayNumber t.day).weekday)
    rw [← current, firstAnchor]
    omega
  have days : t.epoch.toInt / 86400 = t.day := rfl
  simp only [snapWeeks, days, bind_eq_ok_iff, mapError_eq_ok_iff, weekday_eq_ok_iff,
    narrow64_eq_ok_iff, pure_eq_ok_iff]
  rw [at_midnight_iff]
  constructor
  · rintro ⟨_, ⟨supported, rfl⟩, epoch, counted, rfl⟩
    rw [week, Int.mul_comm] at counted
    exact ⟨supported, epoch, counted, rfl⟩
  · rintro ⟨supported, epoch, counted, rfl⟩
    refine ⟨_, ⟨supported, rfl⟩, epoch, ?_, rfl⟩
    rw [week, Int.mul_comm, counted]

/-- The month has to be one of the calendar, like the day that is snapped. -/
theorem snapMonths_eq_ok_iff (normal : t.Normalized) {width : Int}
    : t.snapMonths width = .ok snapped
      ↔ supportsDay t.day = true
        ∧ supportsDay (monthStart (floorMultiple (monthOf t.day) width)) = true
        ∧ snapped.Normalized
        ∧ snapped.instant = midnight (monthStart (floorMultiple (monthOf t.day) width)) := by
  simp only [snapMonths, Moment.monthIndex, bind_eq_ok_iff, mapError_eq_ok_iff, narrow32_eq_ok_iff,
    pure_eq_ok_iff, moment_eq_ok_iff normal, and_assoc, exists_and_left, exists_eq_left']
  rw [at_midnight_iff]
  constructor
  · rintro ⟨supported, year, hyear, date, hdate, rfl⟩
    rw [hyear] at hdate
    obtain ⟨reached, rfl⟩ := firstOfMonth_eq_ok_iff.mp hdate
    have first := supportsDay_monthStart_iff.mpr reached
    have epoch := toInt_ofInt_of_supportsDay first (Int.le_refl 0) (by decide)
    refine ⟨supported, first, _, ?_, rfl⟩
    rw [Moment.epoch, Moment.midnight, dayNumber_first, epoch, Int.add_zero]
  · rintro ⟨supported, first, epoch, counted, rfl⟩
    generalize floorMultiple (monthOf t.day) width = index at *
    have reached := supportsDay_monthStart_iff.mp first
    have year : (Int32.ofInt (index / 12)).toInt = index / 12 := by
      obtain ⟨least, greatest⟩ := of_decide_eq_true reached
      simp only [firstYear, lastYear] at least greatest
      exact Int32.toInt_ofInt_of_le (by omega) (by omega)
    have date := firstOfMonth_eq_ok_iff.mpr ⟨reached, rfl⟩
    have kept := toInt_ofInt_of_supportsDay first (Int.le_refl 0) (by decide)
    refine ⟨supported, _, year, _, (congrArg (firstOfMonth · _) year).trans date, ?_⟩
    refine congrArg ofEpoch (Int64.toInt_inj.mp ?_)
    rw [Moment.epoch, Moment.midnight, dayNumber_first, kept, counted, Int.add_zero]

-----------------------------------------------------------------------------------------
-- All units
-----------------------------------------------------------------------------------------

/-- A normalized timestamp at the last of the numbered boundaries that is not behind another
timestamp.
-/
def IsFloor (boundary : Int → Int) (t snapped : Timestamp) : Prop :=
  snapped.Normalized
  ∧ ∃ number,
      snapped.instant = boundary number
      ∧ snapped.instant ≤ t.instant
      ∧ t.instant < boundary (number + 1)

/-- Where every width-th place is a boundary, the last one is that of the floored count of places.
-/
theorem isFloor_iff_floorMultiple (place : Int → Int) {count width : Int} (positive : 0 < width)
    (reached : ∀ number, place number ≤ t.instant ↔ number ≤ count)
    : IsFloor (fun number => place (number * width)) t snapped
      ↔ snapped.Normalized ∧ snapped.instant = place (floorMultiple count width) := by
  have unreached (number : Int) : t.instant < place number ↔ count < number := by
    rw [← Int.not_le, reached, Int.not_le]
  refine and_congr_right fun normal => ?_
  constructor
  · rintro ⟨number, stands, before, after⟩
    rw [stands, reached] at before
    rw [unreached] at after
    rw [stands, (floorMultiple_eq_iff positive).mpr ⟨before, after⟩]
  · intro stands
    have floored : floorMultiple count width = count / width * width := rfl
    obtain ⟨before, after⟩ := (floorMultiple_eq_iff positive).mp floored
    refine ⟨count / width, stands, ?_, (unreached _).mpr after⟩
    rw [stands, reached]
    exact before

end Timestamp

/-- What a unit asks of the calendar: weeks need the day that is snapped, months and years also the
day that they start with.
-/
def TimeUnit.Reaches (unit : TimeUnit) (t snapped : Timestamp) : Prop :=
  match unit with
  | .weeks => supportsDay t.day = true
  | .months | .years => supportsDay t.day = true ∧ supportsDay snapped.day = true
  | _ => True

namespace Timestamp

variable {t snapped : Timestamp}

theorem snapWeeks_eq_ok_iff_isFloor (normal : t.Normalized) {interval : Int}
    (positive : 0 < interval) {anchor : Weekday}
    : t.snapWeeks interval anchor = .ok snapped
      ↔ TimeUnit.weeks.Reaches t snapped
        ∧ IsFloor (fun number => midnight (firstAnchor anchor + number * interval * 7)) t snapped
    := by
  rw [snapWeeks_eq_ok_iff]
  refine and_congr_right fun _ => Iff.symm ?_
  refine isFloor_iff_floorMultiple (fun week => midnight (firstAnchor anchor + week * 7)) positive
    fun week => ?_
  rw [midnight_le_iff normal]
  omega

theorem snapMonths_eq_ok_iff_isFloor (normal : t.Normalized) {width : Int} (positive : 0 < width)
    : t.snapMonths width = .ok snapped
      ↔ TimeUnit.months.Reaches t snapped
        ∧ IsFloor (fun number => midnight (monthStart (number * width))) t snapped := by
  have floor : IsFloor (fun number => midnight (monthStart (number * width))) t snapped ↔ _ :=
    isFloor_iff_floorMultiple (fun index => midnight (monthStart index)) positive
      fun _ => (midnight_le_iff normal).trans monthStart_le_iff
  rw [snapMonths_eq_ok_iff normal, floor]
  -- The day that is found is the first of its month, so the calendar reaches one with the other.
  have sameDay (found : snapped.Normalized ∧ snapped.instant
      = midnight (monthStart (floorMultiple (monthOf t.day) width)))
      : snapped.day = monthStart (floorMultiple (monthOf t.day) width) :=
    ((instant_eq_midnight_iff found.1).mp found.2).1
  constructor
  · rintro ⟨supported, first, found⟩
    exact ⟨⟨supported, sameDay found ▸ first⟩, found⟩
  · rintro ⟨⟨supported, first⟩, found⟩
    exact ⟨supported, sameDay found ▸ first, found⟩

/-- Snapping finds the last boundary that is not behind the timestamp, if the interval is positive
and the calendar reaches as far as the unit asks for.
-/
theorem snap_eq_ok_iff (normal : t.Normalized) {interval : Int64} {unit : TimeUnit}
    {anchor : Weekday}
    : t.snap interval unit anchor = .ok snapped
      ↔ 0 < interval.toInt
        ∧ unit.Reaches t snapped
        ∧ IsFloor (unit.boundary interval.toInt anchor) t snapped := by
  unfold snap
  split
  · rename_i small
    constructor
    · intro refused
      cases refused
    · intro found
      omega
  · rename_i large
    have positive : 0 < interval.toInt := by omega
    rw [and_iff_right positive]
    rcases unit.fixed_or_calendar with ⟨length, fixed, long⟩ | rfl | rfl | rfl
    · have free : unit.Reaches t snapped := by
        cases unit <;> trivial
      have same : unit.boundary interval.toInt anchor
          = fun number => number * (length * interval.toInt) :=
        funext (TimeUnit.boundary_of_fixed fixed interval.toInt anchor)
      simp only [fixed]
      rw [and_iff_right free, same, snapFixed_eq_ok_iff]
      exact (isFloor_iff_floorMultiple id (Int.mul_pos long positive) fun _ => Iff.rfl).symm
    · exact snapWeeks_eq_ok_iff_isFloor normal positive
    · exact snapMonths_eq_ok_iff_isFloor normal positive
    · exact snapMonths_eq_ok_iff_isFloor normal (Int.mul_pos positive (by decide))

end Timestamp

end SeriesWire
