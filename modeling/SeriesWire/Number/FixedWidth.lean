/-! Exact integers enter fixed-width fields through two doors only: refusal and saturation.
All other integer arithmetic of the library is on `Int`, where nothing wraps.
-/

namespace SeriesWire

/-- The end of a fixed-width range that an exact integer misses. -/
inductive RangeError where
  | tooSmall
  | tooLarge
  deriving DecidableEq, Repr

/-- The wording of a refused conversion. -/
def RangeError.message : RangeError → String
  | .tooSmall => "number too small to fit in target type"
  | .tooLarge => "number too large to fit in target type"

/-- The 64-bit integer equal to `n`, refused when there is none. -/
def narrow64 (n : Int) : Except RangeError Int64 :=
  if n < Int64.minValue.toInt then .error .tooSmall
  else if Int64.maxValue.toInt < n then .error .tooLarge
  else .ok (Int64.ofInt n)

/-- The 32-bit integer equal to `n`, refused when there is none. -/
def narrow32 (n : Int) : Except RangeError Int32 :=
  if n < Int32.minValue.toInt then .error .tooSmall
  else if Int32.maxValue.toInt < n then .error .tooLarge
  else .ok (Int32.ofInt n)

/-- The 64-bit integer closest to `n`. -/
def saturate64 (n : Int) : Int64 :=
  Int64.ofInt (max Int64.minValue.toInt (min n Int64.maxValue.toInt))

/-- A conversion succeeds exactly with the equal 64-bit integer. -/
theorem narrow64_eq_ok_iff {n : Int} {x : Int64}
    : narrow64 n = .ok x ↔ x.toInt = n := by
  have least := Int64.toInt_minValue
  have greatest := Int64.toInt_maxValue
  have hl := x.le_toInt
  have hu := x.toInt_lt
  unfold narrow64
  split
  · simp; omega
  · split
    · simp; omega
    · rename_i h₁ h₂
      have hn := Int64.toInt_ofInt_of_le (n := n) (by omega) (by omega)
      simp only [Except.ok.injEq]
      constructor
      · rintro rfl
        exact hn
      · intro h
        exact Int64.toInt_inj.mp (hn.trans h.symm)

/-- A conversion succeeds exactly with the equal 32-bit integer. -/
theorem narrow32_eq_ok_iff {n : Int} {x : Int32}
    : narrow32 n = .ok x ↔ x.toInt = n := by
  have least := Int32.toInt_minValue
  have greatest := Int32.toInt_maxValue
  have hl := x.le_toInt
  have hu := x.toInt_lt
  unfold narrow32
  split
  · simp; omega
  · split
    · simp; omega
    · rename_i h₁ h₂
      have hn := Int32.toInt_ofInt_of_le (n := n) (by omega) (by omega)
      simp only [Except.ok.injEq]
      constructor
      · rintro rfl
        exact hn
      · intro h
        exact Int32.toInt_inj.mp (hn.trans h.symm)

/-- Saturation clamps the exact value to the ends of the range. -/
theorem toInt_saturate64 (n : Int)
    : (saturate64 n).toInt = max Int64.minValue.toInt (min n Int64.maxValue.toInt) := by
  have least := Int64.toInt_minValue
  have greatest := Int64.toInt_maxValue
  exact Int64.toInt_ofInt_of_le (by omega) (by omega)

end SeriesWire
