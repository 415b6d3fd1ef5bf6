import SeriesWire.Calendar.Moment
import SeriesWire.Proofs.Calendar.Dates
import SeriesWire.Proofs.Success

/-! How far the calendar reaches.
Civil times, weekdays and months are found for the days of the supported years and for no others,
and these days lie far inside of what 64 bits can count in seconds.
-/

namespace SeriesWire

open Calendar

/-- The civil time of an instant is its day, its second of the day and its nanoseconds. It is found
on every supported day, unless the nanoseconds run on past their second.
-/
theorem Moment.ofInstant_eq_ok_iff {epoch nanos : Int} {moment : Moment} (least : 0 ≤ nanos)
    (below : nanos < 1000000000)
    : ofInstant epoch nanos = .ok moment
      ↔ supportsDay (epoch / 86400) = true ∧ ⟨epoch / 86400, epoch % 86400, nanos⟩ = moment := by
  have kept : nanos % 4294967296 = nanos := by omega
  have held : holdsNanos epoch nanos = true := decide_eq_true (Or.inl below)
  rw [ofInstant]
  simp only [kept, held, and_true]
  split <;> simp_all

namespace Calendar

/-- The supported days have no gap. -/
theorem supportsDay_between {first middle last : Int} (hf : supportsDay first = true)
    (hl : supportsDay last = true) (early : first ≤ middle) (late : middle ≤ last)
    : supportsDay middle = true := by
  obtain ⟨least, _⟩ := of_decide_eq_true hf
  obtain ⟨_, greatest⟩ := of_decide_eq_true hl
  exact decide_eq_true ⟨by omega, by omega⟩

/-- The seconds of every supported day can be counted in 64 bits. -/
theorem toInt_ofInt_of_supportsDay {day second : Int} (supported : supportsDay day = true)
    (early : 0 ≤ second) (late : second < 86400)
    : (Int64.ofInt (86400 * day + second)).toInt = 86400 * day + second := by
  obtain ⟨least, greatest⟩ := of_decide_eq_true supported
  have first : yearStart firstYear = -96465292 := by decide
  have last : yearStart (lastYear + 1) = 95026237 := by decide
  exact Int64.toInt_ofInt_of_le (by omega) (by omega)

/-- A day is supported exactly if the year of its month is. -/
theorem supportsDay_iff_monthOf {day : Int}
    : supportsDay day = true ↔ supportsYear (monthOf day / 12) = true := by
  have first : yearStart firstYear ≤ day ↔ 12 * firstYear ≤ monthOf day := by
    rw [← monthStart_january, monthStart_le_iff]
  have past : yearStart (lastYear + 1) ≤ day ↔ 12 * (lastYear + 1) ≤ monthOf day := by
    rw [← monthStart_january, monthStart_le_iff]
  simp only [supportsDay, supportsYear, decide_eq_true_eq]
  omega

/-- The first day of a month is supported exactly if the year of the month is. -/
theorem supportsDay_monthStart_iff {index : Int}
    : supportsDay (monthStart index) = true ↔ supportsYear (index / 12) = true := by
  rw [supportsDay_iff_monthOf, monthOf_monthStart]

/-- A weekday is found for every supported day, and it is that of the day's date. -/
theorem weekday_eq_ok_iff {day : Int} {found : Weekday}
    : weekday day = .ok found
      ↔ supportsDay day = true ∧ (Date.ofDayNumber day).weekday = found := by
  have same : 86400 * day / 86400 = day := Int.mul_ediv_cancel_left day (by decide)
  have civil {moment : Moment} : Moment.ofInstant (86400 * day) 0 = .ok moment
      ↔ supportsDay day = true ∧ ⟨day, 86400 * day % 86400, 0⟩ = moment := by
    rw [Moment.ofInstant_eq_ok_iff (Int.le_refl 0) (by decide), same]
  simp only [weekday]
  split
  · simp only [map_eq_ok_iff, civil, Moment.date, and_assoc, exists_and_left, exists_eq_left']
  · rename_i uncounted
    constructor
    · intro h
      cases h
    · rintro ⟨supported, -⟩
      have epoch := toInt_ofInt_of_supportsDay supported (Int.le_refl 0) (by decide)
      have least := (Int64.ofInt (86400 * day + 0)).le_toInt
      have greatest := (Int64.ofInt (86400 * day + 0)).toInt_lt
      rw [Int64.toInt_minValue, Int64.toInt_maxValue] at uncounted
      omega

/-- No weekday is found for a day beyond them, though its seconds can be counted. -/
theorem weekday_of_unsupported {day : Int} (unsupported : supportsDay day = false) {epoch : Int64}
    (counted : epoch.toInt = 86400 * day)
    : weekday day = .error (.unsupportedInstant epoch.toInt 0) := by
  have same : 86400 * day / 86400 = day := Int.mul_ediv_cancel_left day (by decide)
  have least := epoch.le_toInt
  have greatest := epoch.toInt_lt
  have fits : Int64.minValue.toInt ≤ 86400 * day ∧ 86400 * day ≤ Int64.maxValue.toInt := by
    rw [Int64.toInt_minValue, Int64.toInt_maxValue]
    omega
  simp only [weekday, fits, and_self, if_true, Moment.ofInstant, same, unsupported, counted,
    Bool.false_eq_true, false_and, if_false, Except.map]

/-- The first of a month is found for the twelve months of every supported year. -/
theorem firstOfMonth_of_parts_eq_ok_iff {year : Int} {month : Nat} {date : Date}
    : firstOfMonth year month = .ok date
      ↔ supportsYear year = true ∧ 1 ≤ month ∧ month ≤ 12 ∧ ⟨year, month, 1⟩ = date := by
  have long : ((1 : Nat) : Int) ≤ monthLength (Date.monthIndex ⟨year, month, 1⟩) := by
    have next := monthStart_lt_succ (Date.monthIndex ⟨year, month, 1⟩)
    rw [monthLength]
    omega
  by_cases h : supportsYear year = true ∧ 1 ≤ month ∧ month ≤ 12
  · obtain ⟨supported, least, greatest⟩ := h
    simp only [firstOfMonth, Date.of?, supported, least, greatest, long, Nat.le_refl, and_self,
      if_true, true_and, Except.ok.injEq]
  · have missing : Date.of? year month 1 = none :=
      if_neg fun held => h ⟨held.1, held.2.1, held.2.2.1⟩
    rw [firstOfMonth, missing]
    constructor
    · intro found
      cases found
    · rintro ⟨supported, least, greatest, -⟩
      exact (h ⟨supported, least, greatest⟩).elim

/-- The first of a month is found in every supported year, and it is the day that the month starts
with.
-/
theorem firstOfMonth_eq_ok_iff {index : Int} {date : Date}
    : firstOfMonth (index / 12) ((index % 12).toNat + 1) = .ok date
      ↔ supportsYear (index / 12) = true ∧ ⟨index / 12, (index % 12).toNat + 1, 1⟩ = date := by
  have least : 1 ≤ (index % 12).toNat + 1 := Nat.le_add_left 1 _
  have greatest : (index % 12).toNat + 1 ≤ 12 := by omega
  simp only [firstOfMonth_of_parts_eq_ok_iff, least, greatest, true_and]

theorem dayNumber_first (index : Int)
    : Date.dayNumber ⟨index / 12, (index % 12).toNat + 1, 1⟩ = monthStart index := by
  have same : Date.monthIndex ⟨index / 12, (index % 12).toNat + 1, 1⟩ = index := by
    simp only [Date.monthIndex]
    omega
  rw [Date.dayNumber_of_first rfl, same]

end Calendar

end SeriesWire
