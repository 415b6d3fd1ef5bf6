import SeriesWire.Proofs.Instant.GridPoints

/-! The points of a grid cut time into cells.
Counting steps from the start and snapping an instant are different calculations, but they agree:
whatever lies between a point and the next one is snapped to the point.
-/

namespace SeriesWire

open Calendar

/-- Later instants do not lie on earlier days. -/
theorem Timestamp.day_mono {a b : Timestamp} (ha : a.Normalized) (hb : b.Normalized)
    (h : a.instant ≤ b.instant)
    : a.day ≤ b.day := by
  simp only [Normalized, instant, day] at *
  omega

namespace Grid

/-- The calendar reaches whatever lies between two points of which one is a step behind the other.
-/
theorem reaches_of_add_step {interval : Int64} {unit : TimeUnit} {step : Amount}
    (stepped : stepOf interval unit = .ok step) {point next t : Timestamp}
    (normal : point.Normalized) (moved : point.add step = .ok next) (normalNext : next.Normalized)
    (inside : t.Normalized) (begun : point.instant ≤ t.instant) (unended : t.instant < next.instant)
    : unit.Reaches t point := by
  have period {years months days : Int32} (same : step = .period years months days)
      : supportsDay t.day = true ∧ supportsDay point.day = true := by
    subst same
    obtain ⟨first, last, -⟩ := Timestamp.day_of_shiftPeriod normal moved
    have early := Timestamp.day_mono normal inside begun
    have late := Timestamp.day_mono inside normalNext (Int.le_of_lt unended)
    exact ⟨supportsDay_between first last early late, first⟩
  rcases unit.fixed_or_calendar with ⟨length, fixed, -⟩ | rfl | rfl | rfl
  · cases unit <;> trivial
  · obtain ⟨weeks, -, rfl⟩ := map_eq_ok_iff.mp stepped
    exact (period rfl).1
  · obtain ⟨months, -, rfl⟩ := map_eq_ok_iff.mp stepped
    exact period rfl
  · obtain ⟨years, -, rfl⟩ := map_eq_ok_iff.mp stepped
    exact period rfl

/-- A grid and snapping agree. The first point is not behind the start and the second one is; and
every timestamp from a point up to the next one, however far from the start, is snapped to the
point.
-/
theorem snap_of_between {start stop : Timestamp} {interval : Int64} {unit : TimeUnit}
    {zone : Option String} {grid : Grid} (normal : start.Normalized)
    (counted : unit = .weeks → interval.toInt * 7 ≤ Int32.maxValue.toInt)
    (made : Grid.fixed start stop interval unit zone = .ok grid)
    : grid.start ≤ start
      ∧ (∀ second, grid.point? 1 = some second → start < second)
      ∧ ∀ number point next t,
          grid.point? number = some point
          → grid.point? (number + 1) = some next
          → t.Normalized
          → point ≤ t
          → t < next
          → t.snap interval unit .sunday = .ok point := by
  have laid := laid_of_fixed normal counted made
  refine ⟨laid.first, fun second found => laid.others 0 second found, ?_⟩
  intro number point next t found foundNext inside begun unended
  obtain ⟨positive, origin, -, -, stands⟩ := boundary_of_point? normal counted made
  obtain ⟨normalPoint, here⟩ := stands number point found
  obtain ⟨normalNext, there⟩ := stands (number + 1) next foundNext
  obtain ⟨_, step, stepped, shared⟩ := of_fixed made
  obtain ⟨previous, same, moved⟩ := of_point?_succ shared foundNext
  obtain rfl : point = previous := Option.some.inj (found.symm.trans same)
  rw [Timestamp.le_iff_instant normalPoint inside] at begun
  rw [Timestamp.lt_iff_instant inside normalNext] at unended
  have reached :=
    reaches_of_add_step stepped normalPoint moved normalNext inside begun unended
  refine (Timestamp.snap_eq_ok_iff inside).mpr ⟨positive, reached, normalPoint, origin + number,
    here, begun, ?_⟩
  rwa [there, Int.natCast_succ, ← Int.add_assoc] at unended

/-- Quarters of a year that end with 1970: the last nanosecond before it lies in the quarter that
starts in October.
-/
theorem snap_of_between_quarter
    : ∃ grid,
        Grid.fixed (.ofEpoch (-100)) (.ofEpoch 0) 3 .months none = .ok grid
        ∧ grid.point? 0 = some (.ofEpoch (-7948800))
        ∧ grid.point? 1 = some (.ofEpoch 0)
        ∧ (Timestamp.ofEpoch (-100)).Normalized
        ∧ Timestamp.Normalized ⟨-1, 999999999⟩
        ∧ Timestamp.snap ⟨-1, 999999999⟩ 3 .months .sunday = .ok (.ofEpoch (-7948800)) := by
  obtain ⟨grid, made, first, second⟩ : ∃ grid,
      Grid.fixed (.ofEpoch (-100)) (.ofEpoch 0) 3 .months none = .ok grid
      ∧ grid.point? 0 = some (.ofEpoch (-7948800))
      ∧ grid.point? 1 = some (.ofEpoch 0) :=
    ⟨_, rfl, by decide +kernel, by decide +kernel⟩
  have start : (Timestamp.ofEpoch (-100)).Normalized := ⟨by decide, by decide⟩
  have inside : Timestamp.Normalized ⟨-1, 999999999⟩ := ⟨by decide, by decide⟩
  have counted : TimeUnit.months = .weeks → (3 : Int64).toInt * 7 ≤ Int32.maxValue.toInt := by simp
  obtain ⟨-, -, snaps⟩ := snap_of_between start counted made
  exact ⟨grid, made, first, second, start, inside,
    snaps 0 _ _ _ first second inside (by decide) (by decide)⟩

end Grid

end SeriesWire
