import SeriesWire.Proofs.Calendar.Reach

/-! Civil times agree with the calendar.
The month of a civil time is the only month that holds the instant: its first midnight is not behind
the instant, and that of the next month is. So days and months are counted alike in all supported
years, across leap years and before year zero too.
-/

namespace SeriesWire

open Calendar

namespace Moment

-----------------------------------------------------------------------------------------
-- Months of dates and of civil times
-----------------------------------------------------------------------------------------

/-- The month of a civil time is that of its date. -/
theorem monthIndex_date (moment : Moment) : moment.date.monthIndex = moment.monthIndex := by
  obtain ⟨valid, named⟩ := Date.valid_ofDayNumber moment.day
  have month := Date.monthOf_dayNumber valid
  rw [named] at month
  exact month.symm

/-- The midnight of a date lies in the month of the date. -/
theorem monthIndex_midnight {date : Date} (valid : date.Valid)
    : (midnight date).monthIndex = date.monthIndex :=
  Date.monthOf_dayNumber valid

theorem epoch_midnight (date : Date) : (midnight date).epoch = 86400 * date.dayNumber := by
  rw [epoch, midnight, Int.add_zero]

/-- The first midnight of a month has passed by an instant exactly if the month comes no later than
that of the instant.
-/
theorem epoch_midnight_le_iff {date : Date} (first : date.day = 1) {epoch : Int}
    : (midnight date).epoch ≤ epoch ↔ date.monthIndex ≤ monthOf (epoch / 86400) := by
  have begun : 86400 * date.dayNumber ≤ epoch ↔ date.dayNumber ≤ epoch / 86400 := by omega
  rw [epoch_midnight, begun, Date.dayNumber_of_first first, monthStart_le_iff]

end Moment

namespace Calendar

-----------------------------------------------------------------------------------------
-- The month that holds an instant
-----------------------------------------------------------------------------------------

/-- The first day of the month with an index. -/
def firstOf (index : Int) : Except CalendarError Date :=
  firstOfMonth (index / 12) ((index % 12).toNat + 1)

/-- The month with an index has begun by an instant, and the next month, if the calendar has it, has
not.
-/
structure MonthHolds (index epoch : Int) : Prop where
  begun : ∃ first, firstOf index = .ok first ∧ (Moment.midnight first).epoch ≤ epoch
  unended : ∀ next, firstOf (index + 1) = .ok next → epoch < (Moment.midnight next).epoch

/-- The first of a month is a date of the calendar, and it lies in this month. -/
theorem valid_of_firstOfMonth {year : Int} {month : Nat} {date : Date}
    (found : firstOfMonth year month = .ok date)
    : date.Valid ∧ date.day = 1 ∧ date.monthIndex = 12 * year + month - 1 := by
  obtain ⟨-, least, greatest, rfl⟩ := firstOfMonth_of_parts_eq_ok_iff.mp found
  have long := le_daysIn year month
  exact ⟨⟨⟨least, greatest⟩, Nat.le_refl 1, show 1 ≤ daysIn year month by omega⟩, rfl, rfl⟩

theorem valid_of_firstOf {index : Int} {date : Date} (found : firstOf index = .ok date)
    : date.Valid ∧ date.day = 1 ∧ date.monthIndex = index := by
  obtain ⟨valid, first, month⟩ := valid_of_firstOfMonth found
  exact ⟨valid, first, by omega⟩

theorem exists_firstOf_iff {index : Int}
    : (∃ first, firstOf index = .ok first) ↔ supportsYear (index / 12) = true := by
  constructor
  · rintro ⟨first, found⟩
    exact (firstOfMonth_eq_ok_iff.mp found).1
  · intro supported
    exact ⟨_, firstOfMonth_eq_ok_iff.mpr ⟨supported, rfl⟩⟩

/-- Every instant of the supported years lies in the month of its day and in no other. At the end of
these years there is no next month, but no instant either.
-/
theorem monthHolds_iff {index epoch : Int} (supported : supportsDay (epoch / 86400) = true)
    : MonthHolds index epoch ↔ monthOf (epoch / 86400) = index := by
  have year := supportsDay_iff_monthOf.mp supported
  constructor
  · rintro ⟨⟨date, found, begun⟩, unended⟩
    obtain ⟨-, first, rfl⟩ := valid_of_firstOf found
    have upTo := (Moment.epoch_midnight_le_iff first).mp begun
    by_cases h : supportsYear ((date.monthIndex + 1) / 12) = true
    · obtain ⟨next, follows⟩ := exists_firstOf_iff.mpr h
      obtain ⟨-, firstNext, month⟩ := valid_of_firstOf follows
      have behind := mt (Moment.epoch_midnight_le_iff firstNext).mpr
        (Int.not_le.mpr (unended next follows))
      omega
    · -- Only the last month of all has no next one, and no supported day lies behind it.
      have own := exists_firstOf_iff.mp ⟨date, found⟩
      simp only [supportsYear, decide_eq_true_eq] at h own year
      omega
  · rintro rfl
    refine ⟨?_, ?_⟩
    · obtain ⟨date, found⟩ := exists_firstOf_iff.mpr year
      obtain ⟨-, first, month⟩ := valid_of_firstOf found
      exact ⟨date, found, (Moment.epoch_midnight_le_iff first).mpr (Int.le_of_eq month)⟩
    · intro next follows
      obtain ⟨-, first, month⟩ := valid_of_firstOf follows
      apply Int.not_le.mp
      rw [Moment.epoch_midnight_le_iff first]
      omega

/-- From the first midnight of a month to that of the next it is as many days as the month has. -/
theorem epoch_midnight_next {year : Int} {month : Nat} {first next : Date}
    (found : firstOfMonth year month = .ok first) (follows : firstOf (12 * year + month) = .ok next)
    : (Moment.midnight next).epoch = (Moment.midnight first).epoch + 86400 * daysIn year month := by
  obtain ⟨-, least, greatest, rfl⟩ := firstOfMonth_of_parts_eq_ok_iff.mp found
  obtain ⟨-, firstNext, monthNext⟩ := valid_of_firstOf follows
  have long : monthLength (Date.monthIndex ⟨year, month, 1⟩) = daysIn year month :=
    Date.monthLength_monthIndex ⟨least, greatest⟩
  have index : Date.monthIndex ⟨year, month, 1⟩ + 1 = 12 * year + month := by
    simp only [Date.monthIndex]
    omega
  rw [monthLength, index] at long
  rw [Moment.epoch_midnight, Moment.epoch_midnight, Date.dayNumber_of_first firstNext, monthNext,
    Date.dayNumber_of_first rfl]
  omega

-----------------------------------------------------------------------------------------
-- Agreement
-----------------------------------------------------------------------------------------

/-- Instants, months and weekdays are counted by one calendar. The date of a civil time is the only
one that names its day. The month of a civil time is that of its date, and the only one that holds
the instant. The first of a month lies in this month, and the next month starts as many days later
as the month has. Weekdays run on from a Sunday without a gap. All of them are found in the
supported years and nowhere else.
-/
theorem civil_times_agree
    : (∀ epoch nanos : Int, 0 ≤ nanos → nanos < 1000000000
        → ((∃ moment, Moment.ofInstant epoch nanos = .ok moment)
            ↔ supportsDay (epoch / 86400) = true)
          ∧ ∀ moment, Moment.ofInstant epoch nanos = .ok moment
            → (∀ date, moment.date = date ↔ date.Valid ∧ date.dayNumber = moment.day)
              ∧ moment.date.monthIndex = moment.monthIndex
              ∧ ∀ index, MonthHolds index epoch ↔ moment.monthIndex = index)
      ∧ (∀ (year : Int) (month : Nat),
          ((∃ first, firstOfMonth year month = .ok first)
            ↔ supportsYear year = true ∧ 1 ≤ month ∧ month ≤ 12)
          ∧ ∀ first, firstOfMonth year month = .ok first
            → (Moment.midnight first).monthIndex = 12 * year + month - 1
              ∧ ∀ next, firstOf (12 * year + month) = .ok next
                → (Moment.midnight next).epoch
                  = (Moment.midnight first).epoch + 86400 * daysIn year month)
      ∧ ∀ (day : Int) (found : Weekday),
          weekday day = .ok found
          ↔ supportsDay day = true ∧ found.daysFromSunday = (day + 4) % 7 := by
  refine ⟨?_, ?_, ?_⟩
  · intro epoch nanos least below
    refine ⟨?_, ?_⟩
    · simp only [Moment.ofInstant_eq_ok_iff least below, exists_and_left, exists_eq', and_true]
    · intro moment accepted
      obtain ⟨supported, rfl⟩ := (Moment.ofInstant_eq_ok_iff least below).mp accepted
      exact ⟨fun date => Date.ofDayNumber_eq_iff, Moment.monthIndex_date _,
        fun index => monthHolds_iff supported⟩
  · intro year month
    refine ⟨?_, ?_⟩
    · simp only [firstOfMonth_of_parts_eq_ok_iff, exists_and_left, exists_eq', and_true]
    · intro first found
      obtain ⟨valid, -, index⟩ := valid_of_firstOfMonth found
      refine ⟨?_, fun next follows => epoch_midnight_next found follows⟩
      rw [Moment.monthIndex_midnight valid, index]
  · intro day found
    rw [weekday_eq_ok_iff, Date.weekday_ofDayNumber_eq_iff, @eq_comm Int ((day + 4) % 7)]

/-- The last instant of a leap day before year zero lies in February, which has 29 days there, and
on a Thursday.
-/
theorem civil_times_agree_leapDay
    : (0 : Int) ≤ 999999999
      ∧ (999999999 : Int) < 1000000000
      ∧ Moment.ofInstant (-62288265601) 999999999 = .ok ⟨-720930, 86399, 999999999⟩
      ∧ Moment.date ⟨-720930, 86399, 999999999⟩ = ⟨-4, 2, 29⟩
      ∧ MonthHolds (12 * -4 + 1) (-62288265601)
      ∧ firstOfMonth (-4) 2 = .ok ⟨-4, 2, 1⟩
      ∧ firstOf (12 * -4 + 2) = .ok ⟨-4, 3, 1⟩
      ∧ (Moment.midnight ⟨-4, 3, 1⟩).epoch = (Moment.midnight ⟨-4, 2, 1⟩).epoch + 86400 * 29
      ∧ weekday (-720930) = .ok .thursday := by
  have least : (0 : Int) ≤ 999999999 := by decide
  have below : (999999999 : Int) < 1000000000 := by decide
  have accepted : Moment.ofInstant (-62288265601) 999999999 = .ok ⟨-720930, 86399, 999999999⟩ := rfl
  have found : firstOfMonth (-4) 2 = .ok ⟨-4, 2, 1⟩ := rfl
  have follows : firstOf (12 * -4 + 2) = .ok ⟨-4, 3, 1⟩ := rfl
  have valid : Date.Valid ⟨-4, 2, 29⟩ := ⟨by decide, by decide⟩
  obtain ⟨instants, months, weekdays⟩ := civil_times_agree
  obtain ⟨dated, -, holds⟩ := (instants _ _ least below).2 _ accepted
  have date := (dated _).mpr ⟨valid, rfl⟩
  have held := (holds (12 * -4 + 1)).mpr rfl
  have long := ((months _ _).2 _ found).2 _ follows
  exact ⟨least, below, accepted, date, held, found, follows, long,
    (weekdays _ _).mpr ⟨by decide, rfl⟩⟩

end Calendar

end SeriesWire
