/-! When computations that may fail succeed.
Each lemma takes one way of putting them together apart, so that what a successful computation did
is read off step by step.
-/

namespace SeriesWire

variable {ε ε' α β : Type}

theorem pure_eq_ok_iff {value result : α}
    : (pure value : Except ε α) = .ok result ↔ value = result := by
  simp [pure, Except.pure]

/-- Computations that follow each other succeed if each of them does. -/
theorem bind_eq_ok_iff {first : Except ε α} {next : α → Except ε β} {result : β}
    : first >>= next = .ok result ↔ ∃ value, first = .ok value ∧ next value = .ok result := by
  cases first <;> simp [bind, Except.bind]

theorem map_eq_ok_iff {first : Except ε α} {convert : α → β} {result : β}
    : first.map convert = .ok result ↔ ∃ value, first = .ok value ∧ convert value = result := by
  cases first <;> simp [Except.map]

theorem mapError_eq_ok_iff {first : Except ε α} {convert : ε → ε'} {result : α}
    : first.mapError convert = .ok result ↔ first = .ok result := by
  cases first with
  | error cause => exact ⟨nofun, nofun⟩
  | ok value =>
      change Except.ok value = .ok result ↔ _
      rw [Except.ok.injEq, Except.ok.injEq]

theorem throw_bind {cause : ε} {next : α → Except ε β}
    : throw cause >>= next = throw cause :=
  rfl

/-- A computation behind a check succeeds if the check lets it pass. -/
theorem check_eq_ok_iff {refused : Prop} [Decidable refused] {cause : ε} {next : Except ε β}
    {result : β}
    : (if refused then throw cause else next) = .ok result ↔ ¬refused ∧ next = .ok result := by
  by_cases h : refused
  · simp [h, throw, throwThe, MonadExceptOf.throw]
  · simp [h]

end SeriesWire
