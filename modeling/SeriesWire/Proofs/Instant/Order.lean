import SeriesWire.Instant.Timestamp

/-! The order of timestamps, by seconds first and by nanoseconds second.
It is linear, and on normalized timestamps, of which each instant has one at most, it is the order
of the exact instants.
-/

namespace SeriesWire.Timestamp

instance : Std.LawfulOrderOrd Timestamp where
  isLE_compare _ _ := .rfl
  isGE_compare _ _ := by
    rw [Std.OrientedCmp.isGE_eq_isLE]
    rfl

instance : Std.LawfulOrderLT Timestamp :=
  .of_ord Timestamp fun _ _ => .rfl

instance : Std.IsLinearOrder Timestamp :=
  .of_ord

theorem lt_iff {a b : Timestamp}
    : a < b ↔ a.epoch < b.epoch ∨ a.epoch = b.epoch ∧ a.nanos < b.nanos := by
  have epoch : compare a.epoch b.epoch = .lt ↔ a.epoch < b.epoch := compareOfLessAndEq_eq_lt
  have nanos : compare a.nanos b.nanos = .lt ↔ a.nanos < b.nanos := compareOfLessAndEq_eq_lt
  change (compare a.epoch b.epoch).then (compare a.nanos b.nanos) = .lt ↔ _
  rw [Ordering.then_eq_lt, Std.LawfulEqCmp.compare_eq_iff_eq, epoch, nanos]

theorem le_iff_not_lt {a b : Timestamp} : a ≤ b ↔ ¬ b < a :=
  Std.not_lt.symm

variable {a b : Timestamp}

theorem lt_of_epoch_lt (h : a.epoch < b.epoch) : a < b :=
  lt_iff.mpr (.inl h)

/-- The order of timestamps is never against that of their seconds. -/
theorem epoch_le_of_le (h : a ≤ b) : a.epoch ≤ b.epoch :=
  Int64.not_lt.mp fun later => le_iff_not_lt.mp h (lt_of_epoch_lt later)

/-- Within a second the nanoseconds decide. -/
theorem le_of_epoch_le (h : a.epoch ≤ b.epoch) (within : a.epoch = b.epoch → a ≤ b) : a ≤ b := by
  by_cases same : a.epoch = b.epoch
  · exact within same
  · exact Std.le_of_lt (lt_of_epoch_lt (Int64.lt_of_le_of_ne h same))

def least : Timestamp :=
  ⟨Int64.minValue, Int64.minValue⟩

def greatest : Timestamp :=
  ⟨Int64.maxValue, Int64.maxValue⟩

theorem least_le (time : Timestamp) : least ≤ time := by
  rw [le_iff_not_lt, lt_iff]
  rintro (seconds | ⟨_, nanos⟩)
  · exact Int64.not_lt.mpr (Int64.minValue_le time.epoch) seconds
  · exact Int64.not_lt.mpr (Int64.minValue_le time.nanos) nanos

theorem le_greatest (time : Timestamp) : time ≤ greatest := by
  rw [le_iff_not_lt, lt_iff]
  rintro (seconds | ⟨_, nanos⟩)
  · exact Int64.not_lt.mpr (Int64.le_maxValue time.epoch) seconds
  · exact Int64.not_lt.mpr (Int64.le_maxValue time.nanos) nanos

/-- Whole seconds are ordered as numbers. -/
theorem lt_iff_epoch (ha : a.nanos = 0) (hb : b.nanos = 0)
    : a < b ↔ a.epoch.toInt < b.epoch.toInt := by
  rw [lt_iff, ha, hb, ← Int64.lt_iff_toInt_lt]
  simp

theorem le_iff_epoch (ha : a.nanos = 0) (hb : b.nanos = 0)
    : a ≤ b ↔ a.epoch.toInt ≤ b.epoch.toInt := by
  rw [le_iff_not_lt, lt_iff_epoch hb ha, Int.not_lt]

/-- Normalized timestamps are ordered as their exact instants. -/
theorem lt_iff_instant (ha : a.Normalized) (hb : b.Normalized)
    : a < b ↔ a.instant < b.instant := by
  rw [lt_iff, Int64.lt_iff_toInt_lt, Int64.lt_iff_toInt_lt, ← Int64.toInt_inj]
  simp only [Normalized, instant] at *
  omega

theorem le_iff_instant (ha : a.Normalized) (hb : b.Normalized)
    : a ≤ b ↔ a.instant ≤ b.instant := by
  rw [le_iff_not_lt, lt_iff_instant hb ha, Int.not_lt]

/-- What is left of a number of nanoseconds beside its whole seconds fits the nanoseconds of a
timestamp.
-/
theorem toInt_ofInt_nanos (nanos : Int)
    : (Int64.ofInt (nanos % 1000000000)).toInt = nanos % 1000000000 :=
  Int64.toInt_ofInt_of_le (by omega) (by omega)

/-- At an instant stands the timestamp of its whole seconds and of the nanoseconds left. -/
theorem at_instant_iff {instant : Int}
    : a.Normalized ∧ a.instant = instant
      ↔ ∃ epoch : Int64,
          epoch.toInt = instant / 1000000000
          ∧ ⟨epoch, Int64.ofInt (instant % 1000000000)⟩ = a := by
  have kept := toInt_ofInt_nanos instant
  constructor
  · rintro ⟨normal, stands⟩
    obtain ⟨epoch, nanos⟩ := a
    simp only [Normalized, Timestamp.instant] at normal stands
    have same : Int64.ofInt (instant % 1000000000) = nanos := Int64.toInt_inj.mp (by omega)
    exact ⟨epoch, by omega, by rw [same]⟩
  · rintro ⟨epoch, seconds, rfl⟩
    simp only [Normalized, Timestamp.instant, kept]
    omega

/-- Milliseconds are split into whole seconds and the nanoseconds left. -/
theorem ofMillis_parts (millis : Int64)
    : (ofMillis millis).epoch.toInt = millis.toInt / 1000
      ∧ (ofMillis millis).nanos.toInt = millis.toInt % 1000 * 1000000 := by
  have least := millis.le_toInt
  have greatest := millis.toInt_lt
  have seconds : (Int64.ofInt (millis.toInt / 1000)).toInt = millis.toInt / 1000 :=
    Int64.toInt_ofInt_of_le (by omega) (by omega)
  have rest : (Int64.ofInt (millis.toInt % 1000 * 1000000)).toInt
      = millis.toInt % 1000 * 1000000 :=
    Int64.toInt_ofInt_of_le (by omega) (by omega)
  have lowest := Int64.toInt_minValue
  have highest := Int64.toInt_maxValue
  simp only [ofMillis, of, seconds, rest, toInt_saturate64, toInt_ofInt_nanos]
  omega

/-- Normalized timestamps of one instant are one timestamp. -/
theorem eq_of_instant (ha : a.Normalized) (hb : b.Normalized) (h : a.instant = b.instant)
    : a = b := by
  generalize same : b.instant = instant at h
  obtain ⟨first, counted, rfl⟩ := at_instant_iff.mp ⟨ha, h⟩
  obtain ⟨second, counted', rfl⟩ := at_instant_iff.mp ⟨hb, same⟩
  rw [Int64.toInt_inj.mp (counted.trans counted'.symm)]

/-- Normalized timestamps compare as their exact instants. -/
theorem compare_eq_compare_instant (ha : a.Normalized) (hb : b.Normalized)
    : compare a b = compare a.instant b.instant := by
  rcases Int.lt_trichotomy a.instant b.instant with before | same | after
  · rw [Int.compare_eq_lt.mpr before]
    exact Std.compare_eq_lt.mpr ((lt_iff_instant ha hb).mpr before)
  · rw [eq_of_instant ha hb same, Std.compare_self, Std.compare_self]
  · rw [Int.compare_eq_gt.mpr after]
    exact Std.compare_eq_gt.mpr ((lt_iff_instant hb ha).mpr after)

end SeriesWire.Timestamp
