import SeriesWire.Proofs.Instant.Order

/-! Timestamps counted in milliseconds.
Seconds and nanoseconds are converted one after the other, and both conversions saturate. What is
added to seconds that have saturated at the lower end is too much, so the first milliseconds that 64
bits can count are not read back.
-/

namespace SeriesWire

/-- Rounding to 64 bits keeps the order. -/
theorem saturate64_mono {m n : Int} (le : m ≤ n)
    : saturate64 m ≤ saturate64 n := by
  rw [Int64.le_iff_toInt_le, toInt_saturate64, toInt_saturate64]
  omega

namespace Timestamp

variable {t a b : Timestamp}

/-- The seconds can be counted in milliseconds without saturating at the lower end, or there are no
milliseconds to add to them.
-/
def MillisFit (t : Timestamp) : Prop :=
  Int64.minValue.toInt ≤ t.epoch.toInt * 1000 ∨ t.nanos.toInt < 1000000

instance (t : Timestamp) : Decidable t.MillisFit :=
  inferInstanceAs (Decidable (_ ∨ _))

-----------------------------------------------------------------------------------------
-- One timestamp
-----------------------------------------------------------------------------------------

/-- The milliseconds of a second and of the nanoseconds behind it. At the upper end one saturation
does for both, at the lower end only the seconds saturate.
-/
theorem toInt_millis (normal : t.Normalized)
    : t.millis.toInt
      = min (Max.max Int64.minValue.toInt (t.epoch.toInt * 1000) + t.nanos.toInt / 1000000)
          Int64.maxValue.toInt := by
  have least := Int64.toInt_minValue
  have greatest := Int64.toInt_maxValue
  obtain ⟨positive, below⟩ := normal
  have fraction : t.nanos.toInt.tdiv 1000000 = t.nanos.toInt / 1000000 :=
    Int.tdiv_eq_ediv_of_nonneg positive
  simp only [millis, toInt_saturate64, fraction]
  omega

/-- The whole milliseconds of an instant are those of its seconds and of its nanoseconds. -/
theorem instant_div_millis (t : Timestamp)
    : t.instant / 1000000 = t.epoch.toInt * 1000 + t.nanos.toInt / 1000000 := by
  rw [instant]
  omega

/-- The milliseconds are never fewer than the whole ones of the instant, as far as these fit. -/
theorem saturate64_le_millis (normal : t.Normalized)
    : saturate64 (t.instant / 1000000) ≤ t.millis := by
  have counted := toInt_millis normal
  have least := Int64.toInt_minValue
  have greatest := Int64.toInt_maxValue
  obtain ⟨positive, below⟩ := normal
  rw [Int64.le_iff_toInt_le, toInt_saturate64, counted, instant_div_millis]
  omega

/-- They are the whole ones of the instant exactly if the seconds do not saturate below, or nothing
is added to them.
-/
theorem millis_eq_iff (normal : t.Normalized)
    : t.millis = saturate64 (t.instant / 1000000) ↔ t.MillisFit := by
  have counted := toInt_millis normal
  have least := Int64.toInt_minValue
  have greatest := Int64.toInt_maxValue
  obtain ⟨positive, below⟩ := normal
  rw [← Int64.toInt_inj, toInt_saturate64, counted, instant_div_millis, MillisFit]
  omega

theorem millis_of_saturated (normal : t.Normalized)
    (early : t.epoch.toInt * 1000 < Int64.minValue.toInt)
    : t.millis.toInt = Int64.minValue.toInt + t.nanos.toInt / 1000000 := by
  have counted := toInt_millis normal
  have least := Int64.toInt_minValue
  have greatest := Int64.toInt_maxValue
  obtain ⟨positive, below⟩ := normal
  omega

-----------------------------------------------------------------------------------------
-- Order
-----------------------------------------------------------------------------------------

/-- Within a second the milliseconds never go back, and neither do they behind a timestamp whose
milliseconds fit.
-/
theorem millis_mono (first : a.Normalized) (second : b.Normalized) (le : a ≤ b)
    (fits : a.MillisFit ∨ a.epoch = b.epoch)
    : a.millis ≤ b.millis := by
  have instants := (le_iff_instant first second).mp le
  rcases fits with fits | same
  · have exactly := (millis_eq_iff first).mpr fits
    have later := saturate64_mono (Int.ediv_le_ediv (by decide : (0 : Int) < 1000000) instants)
    rw [exactly]
    exact Int64.le_trans later (saturate64_le_millis second)
  · have nanos : a.nanos.toInt ≤ b.nanos.toInt := by
      rw [instant, instant, same] at instants
      omega
    rw [Int64.le_iff_toInt_le, toInt_millis first, toInt_millis second, same]
    omega

theorem ofMillis_normalized (millis : Int64)
    : (ofMillis millis).Normalized := by
  obtain ⟨_, nanos⟩ := ofMillis_parts millis
  rw [Normalized, nanos]
  omega

/-- Milliseconds are split without loss. -/
theorem instant_ofMillis (millis : Int64)
    : (ofMillis millis).instant = millis.toInt * 1000000 := by
  obtain ⟨epoch, nanos⟩ := ofMillis_parts millis
  rw [instant, epoch, nanos]
  omega

/-- Counting the milliseconds of the split again starts from whole seconds. -/
theorem toInt_millis_ofMillis (millis : Int64)
    : (ofMillis millis).millis.toInt
      = Max.max Int64.minValue.toInt (millis.toInt / 1000 * 1000) + millis.toInt % 1000 := by
  have counted := toInt_millis (ofMillis_normalized millis)
  have least := Int64.toInt_minValue
  have greatest := Int64.toInt_maxValue
  have above := millis.toInt_lt
  obtain ⟨epoch, nanos⟩ := ofMillis_parts millis
  rw [counted, epoch, nanos]
  omega

/-- Milliseconds are read back from the timestamp that is made of them unless they are among the
first 808 that 64 bits can count, of which each is read as 192 more. Timestamps of more milliseconds
are later. The milliseconds of a timestamp are those of its exact instant, rounded down and as far
as they fit 64 bits, if its seconds do not saturate at the lower end or have no milliseconds behind
them, and only then; otherwise the milliseconds behind the seconds are added to the least of all. So
they never go back behind a timestamp for which they are exact, nor within a second.
-/
theorem millis_faithful (count other : Int64) {t later : Timestamp} (normal : t.Normalized)
    (laterNormal : later.Normalized)
    : ((ofMillis count).millis = count ↔ -9223372036854775000 ≤ count.toInt)
      ∧ (count.toInt < -9223372036854775000
        → (ofMillis count).millis.toInt = count.toInt + 192)
      ∧ (ofMillis count < ofMillis other ↔ count < other)
      ∧ (t.millis = saturate64 (t.instant / 1000000) ↔ t.MillisFit)
      ∧ (t.epoch.toInt * 1000 < Int64.minValue.toInt
        → t.millis.toInt = Int64.minValue.toInt + t.nanos.toInt / 1000000)
      ∧ (t ≤ later → t.MillisFit ∨ t.epoch = later.epoch → t.millis ≤ later.millis) := by
  have least := Int64.toInt_minValue
  have bound := count.le_toInt
  refine ⟨?_, ?_, ?_, millis_eq_iff normal, millis_of_saturated normal,
    millis_mono normal laterNormal⟩
  · rw [← Int64.toInt_inj, toInt_millis_ofMillis]
    omega
  · intro early
    rw [toInt_millis_ofMillis]
    omega
  · rw [lt_iff_instant (ofMillis_normalized count) (ofMillis_normalized other), instant_ofMillis,
      instant_ofMillis, Int64.lt_iff_toInt_lt]
    omega

/-- The first milliseconds that are read back, and the ones before them. The last nanosecond of the
second before theirs counts more than the first one of theirs.
-/
theorem millis_faithful_edges
    : (ofMillis (-9223372036854775000)).millis = -9223372036854775000
      ∧ (ofMillis (-9223372036854775001)).millis.toInt = -9223372036854775001 + 192
      ∧ ofMillis (-9223372036854775001) < ofMillis (-9223372036854775000)
      ∧ Normalized ⟨-9223372036854776, 999999⟩
      ∧ millis ⟨-9223372036854776, 999999⟩ = Int64.minValue
      ∧ Normalized ⟨-9223372036854775, 0⟩
      ∧ millis ⟨-9223372036854776, 999999⟩ ≤ millis ⟨-9223372036854775, 0⟩
      ∧ Normalized ⟨-9223372036854776, 999999999⟩
      ∧ (millis ⟨-9223372036854776, 999999999⟩).toInt = Int64.minValue.toInt + 999 := by
  have exact : Normalized ⟨-9223372036854776, 999999⟩ := ⟨by decide, by decide⟩
  have first : Normalized ⟨-9223372036854775, 0⟩ := ⟨by decide, by decide⟩
  have last : Normalized ⟨-9223372036854776, 999999999⟩ := ⟨by decide, by decide⟩
  obtain ⟨again, _, _, whole, _, mono⟩ :=
    millis_faithful (-9223372036854775000) 0 exact first
  obtain ⟨_, lost, ordered, _, added, _⟩ :=
    millis_faithful (-9223372036854775001) (-9223372036854775000) last first
  refine ⟨again.mpr (by decide), lost (by decide), ordered.mpr (by decide), exact, ?_, first,
    mono (by decide) (.inl (by decide)), last, added (by decide)⟩
  exact (whole.mpr (by decide)).trans (by decide)

/-- The least milliseconds are not read back, and an earlier timestamp may count more milliseconds
than a later one.
-/
theorem millis_saturated
    : (ofMillis Int64.minValue).millis ≠ Int64.minValue
      ∧ ∃ a b : Timestamp,
          a.Normalized
          ∧ b.Normalized
          ∧ a < b
          ∧ b.millis < a.millis
          ∧ a.millis ≠ saturate64 (a.instant / 1000000) := by
  refine ⟨by decide, ⟨Int64.minValue, 999999999⟩, ⟨Int64.minValue + 1, 0⟩, ?_⟩
  exact ⟨⟨by decide, by decide⟩, ⟨by decide, by decide⟩, by decide, by decide, by decide⟩

end Timestamp

end SeriesWire
