import SeriesWire.Calendar.Month

/-! Years and months cut the line of days without gaps.
Every day lies in the year and in the month that are found for it, and in no other, because each of
them starts before the next.
-/

namespace SeriesWire.Calendar

-----------------------------------------------------------------------------------------
-- Years
-----------------------------------------------------------------------------------------

/-- A year has 365 days, and one more if it is a leap year. -/
theorem yearStart_succ (year : Int)
    : yearStart (year + 1) = yearStart year + 365 + if isLeapYear year then 1 else 0 := by
  simp only [yearStart, isLeapYear, decide_eq_true_eq]
  split <;> omega

/-- The year found for a day starts on it or before, and the next year after it. The guess is at
most one year early, since the leap years of four centuries are spread evenly.
-/
theorem yearStart_yearOf (day : Int)
    : yearStart (yearOf day) ≤ day ∧ day < yearStart (yearOf day + 1) := by
  unfold yearOf
  simp only
  split
  · rename_i late
    refine ⟨late, ?_⟩
    simp only [yearStart] at late ⊢
    omega
  · rename_i early
    refine ⟨?_, Int.not_le.mp early⟩
    simp only [yearStart]
    omega

-----------------------------------------------------------------------------------------
-- Months
-----------------------------------------------------------------------------------------

/-- The first day of a month, told by its year and its place in it. -/
theorem monthStart_eq (year : Int) {month : Nat} (h : month < 12)
    : monthStart (12 * year + month)
      = yearStart year + daysBefore month
        + if 2 ≤ month ∧ isLeapYear year then 1 else 0 := by
  have years : (12 * year + month) / 12 = year := by omega
  have months : ((12 * year + month) % 12).toNat = month := by omega
  simp only [monthStart, years, months]

theorem monthStart_january (year : Int) : monthStart (12 * year) = yearStart year := by
  have first := monthStart_eq year (show 0 < 12 by decide)
  simpa [daysBefore] using first

/-- Within a common year every month has four weeks. -/
theorem daysBefore_add_le {month : Nat} (h : month < 11)
    : daysBefore month + 28 ≤ daysBefore (month + 1) := by
  have all : ∀ month < 11, daysBefore month + 28 ≤ daysBefore (month + 1) := by decide
  exact all month h

/-- Every month has days. Witness: within a year the days before a month grow, and December ends
with the year. -/
theorem monthStart_lt_succ (index : Int) : monthStart index < monthStart (index + 1) := by
  obtain ⟨year, month, h, rfl⟩ : ∃ year : Int, ∃ month : Nat, month < 12
      ∧ index = 12 * year + month :=
    ⟨index / 12, (index % 12).toNat, by omega, by omega⟩
  rw [monthStart_eq year h]
  by_cases last : month = 11
  · have next : (12 * year + month + 1 : Int) = 12 * (year + 1) := by omega
    rw [next, monthStart_january, yearStart_succ, last]
    simp [daysBefore]
  · have next : (12 * year + month + 1 : Int) = 12 * year + (month + 1 : Nat) := by omega
    have longer := daysBefore_add_le (show month < 11 by omega)
    rw [next, monthStart_eq year (by omega)]
    -- The leap day is added once from February on, so it is at most gained.
    cases isLeapYear year with
    | false => simpa using by omega
    | true =>
        simp only [and_true]
        split <;> split <;> omega

/-- Later months start later, at least by one day each. -/
theorem monthStart_add_le (index : Int) (count : Nat)
    : monthStart index + count ≤ monthStart (index + count) := by
  induction count with
  | zero => simp
  | succ count ih =>
      have next := monthStart_lt_succ (index + count)
      have shifted : index + (count + 1 : Nat) = index + count + 1 := by omega
      rw [shifted]
      omega

theorem monthStart_mono {first second : Int} (h : first ≤ second)
    : monthStart first ≤ monthStart second := by
  have later := monthStart_add_le first (second - first).toNat
  have same : first + (second - first).toNat = second := by omega
  rw [same] at later
  omega

/-- What holds of all numbers up to some point is counted up to that point, by induction on the
range. -/
theorem countP_range_of_downward (holds : Nat → Bool) (down : ∀ n, holds (n + 1) → holds n)
    (bound : Nat)
    : (∀ n < (List.range bound).countP holds, holds n)
      ∧ ((List.range bound).countP holds < bound
        → holds ((List.range bound).countP holds) = false) := by
  have below {n : Nat} (h : holds n) : ∀ m ≤ n, holds m := by
    induction n with
    | zero =>
        intro m hm
        rwa [Nat.le_zero.mp hm]
    | succ n ih =>
        intro m hm
        rcases Nat.le_succ_iff.mp hm with earlier | same
        · exact ih (down n h) m earlier
        · rwa [same]
  induction bound with
  | zero => simp
  | succ bound ih =>
      rw [List.range_succ, List.countP_append, List.countP_singleton]
      cases last : holds bound with
      | true =>
          have full : (List.range bound).countP holds = bound := by
            have all : ∀ n ∈ List.range bound, holds n := fun n member =>
              below last n (Nat.le_of_lt (List.mem_range.mp member))
            rw [List.countP_eq_length.mpr all, List.length_range]
          simp only [if_true, full]
          exact ⟨fun n h => below last n (Nat.le_of_lt_succ h), fun h => (Nat.lt_irrefl _ h).elim⟩
      | false =>
          simp only [Bool.false_eq_true, if_false, Nat.add_zero]
          refine ⟨ih.1, fun h => ?_⟩
          rcases Nat.lt_succ_iff_lt_or_eq.mp h with inside | full
          · exact ih.2 inside
          · rwa [full]

/-- The month found for a day starts on it or before, and the next month after it. -/
theorem monthStart_monthOf (day : Int)
    : monthStart (monthOf day) ≤ day ∧ day < monthStart (monthOf day + 1) := by
  obtain ⟨started, unended⟩ := yearStart_yearOf day
  have down (month : Nat)
      (h : decide (monthStart (12 * yearOf day + (month + 1 : Nat) + 1) ≤ day) = true)
      : decide (monthStart (12 * yearOf day + month + 1) ≤ day) = true := by
    have earlier := monthStart_mono
      (show 12 * yearOf day + month + 1 ≤ 12 * yearOf day + (month + 1 : Nat) + 1 by omega)
    have begun := of_decide_eq_true h
    exact decide_eq_true (Int.le_trans earlier begun)
  obtain ⟨begun, unbegun⟩ := countP_range_of_downward
    (fun month : Nat => decide (monthStart (12 * yearOf day + month + 1) ≤ day)) down 11
  have places := List.countP_le_length
    (p := fun month : Nat => decide (monthStart (12 * yearOf day + month + 1) ≤ day))
    (l := List.range 11)
  rw [List.length_range] at places
  unfold monthOf
  simp only
  generalize (List.range 11).countP
    (fun month : Nat => decide (monthStart (12 * yearOf day + month + 1) ≤ day)) = count at *
  constructor
  · cases count with
    | zero =>
        rw [Int.natCast_zero, Int.add_zero, monthStart_january]
        exact started
    | succ count =>
        have last := of_decide_eq_true (begun count (Nat.lt_succ_self count))
        rwa [Int.natCast_succ, ← Int.add_assoc]
  · rcases Nat.lt_or_eq_of_le places with inside | full
    · exact Int.not_le.mp (of_decide_eq_false (unbegun inside))
    · have december : 12 * yearOf day + (count : Nat) + 1 = 12 * (yearOf day + 1) := by omega
      rw [december, monthStart_january]
      exact unended

/-- The months that have begun by a day are those up to its own. -/
theorem monthStart_le_iff {index day : Int} : monthStart index ≤ day ↔ index ≤ monthOf day := by
  obtain ⟨found, ended⟩ := monthStart_monthOf day
  constructor
  · intro begun
    rcases Int.lt_or_le (monthOf day) index with behind | upTo
    · have after := monthStart_mono (show monthOf day + 1 ≤ index by omega)
      omega
    · exact upTo
  · intro upTo
    exact Int.le_trans (monthStart_mono upTo) found

/-- A day lies in the month that starts on it or before and whose successor starts after it. -/
theorem monthOf_eq {day index : Int} (started : monthStart index ≤ day)
    (unended : day < monthStart (index + 1))
    : monthOf day = index := by
  have upTo := monthStart_le_iff.mp started
  have behind := mt monthStart_le_iff.mpr (Int.not_le.mpr unended)
  omega

theorem monthOf_monthStart (index : Int) : monthOf (monthStart index) = index :=
  monthOf_eq (Int.le_refl _) (monthStart_lt_succ index)

end SeriesWire.Calendar
