import SeriesWire.Entry.Context
import SeriesWire.Instant.Call
import SeriesWire.Proofs.Instant.Snapping
import SeriesWire.Proofs.Series.Leading
import SeriesWire.Stored.Identity

/-! Where the nanoseconds of a timestamp are less than a second.
Every way to make a timestamp but one normalizes it, and calls keep it so. A stored text brings its
nanoseconds as they are, and the order of what is read from it need not be the order of time.
-/

namespace SeriesWire

namespace Timestamp

variable {t next : Timestamp}

-----------------------------------------------------------------------------------------
-- One call
-----------------------------------------------------------------------------------------

theorem of_normalized (epoch nanos : Int64)
    : (of epoch nanos).Normalized := by
  simp only [Normalized, of, toInt_ofInt_nanos]
  omega

theorem normalized_of_nanos_eq_zero (whole : t.nanos = 0)
    : t.Normalized := by
  simp [Normalized, whole]

/-- The carry of a span leaves less than a second, whatever the timestamp has had before. -/
theorem shiftSpan_normalized {nanos : Int} {direction : Direction}
    (moved : t.shiftSpan nanos direction = .ok next)
    : next.Normalized := by
  simp only [shiftSpan, bind_eq_ok_iff, pure_eq_ok_iff] at moved
  obtain ⟨_, _, epoch, _, rfl⟩ := moved
  generalize t.nanos.toInt + direction.sign * Amount.restNanos nanos = rest
  simp only [Normalized, toInt_ofInt_nanos]
  omega

/-- Boundaries are normalized, and those of weeks, months and years are whole seconds. -/
theorem snap_normalized {interval : Int64} {unit : TimeUnit} {anchor : Weekday}
    (snapped : t.snap interval unit anchor = .ok next)
    : next.Normalized := by
  have months {width : Int} (found : t.snapMonths width = .ok next) : next.Normalized := by
    simp only [snapMonths, bind_eq_ok_iff, pure_eq_ok_iff] at found
    obtain ⟨_, _, _, _, _, _, rfl⟩ := found
    exact normalized_of_nanos_eq_zero rfl
  unfold snap at snapped
  split at snapped
  · cases snapped
  · rcases unit.fixed_or_calendar with ⟨length, fixed, _⟩ | rfl | rfl | rfl
    · simp only [fixed] at snapped
      exact (snapFixed_eq_ok_iff.mp snapped).1
    · exact (snapWeeks_eq_ok_iff.mp snapped).2.1
    · exact months snapped
    · exact months snapped

/-- A span moves any timestamp to a normalized one, and a period keeps the time of day. -/
theorem shift_normalized {amount : Amount} {direction : Direction}
    (kept : t.Normalized ∨ ∃ nanos, amount = .span nanos)
    (moved : t.shift amount direction = .ok next)
    : next.Normalized := by
  cases amount with
  | span nanos => exact shiftSpan_normalized moved
  | period years months days =>
      rcases kept with normal | ⟨_, other⟩
      · obtain ⟨_, _, same, _⟩ := day_of_shiftPeriod normal moved
        rw [Normalized, same]
        exact normal
      · cases other

/-- Whether a call keeps nothing: neither the nanoseconds of another timestamp nor the time of day.
-/
def Call.Renews : Call → Prop
  | .update _ => False
  | .add amount | .subtract amount => ∃ nanos, amount = .span nanos
  | _ => True

/-- A call makes a normalized timestamp of one, unless it copies one that is not. A call that keeps
nothing makes one of any timestamp.
-/
theorem called_normalized {call : Call} (kept : t.Normalized ∨ call.Renews)
    (copied : ∀ other, call = .update other → other.Normalized) (done : t.called call = .ok next)
    : next.Normalized := by
  cases call with
  | update other =>
      cases done
      exact copied next rfl
  | updateEpoch epoch =>
      cases done
      exact normalized_of_nanos_eq_zero rfl
  | updateMillis millis =>
      cases done
      exact of_normalized _ _
  | setMax =>
      cases done
      exact normalized_of_nanos_eq_zero rfl
  | add amount => exact shift_normalized kept (mapError_eq_ok_iff.mp done)
  | subtract amount => exact shift_normalized kept (mapError_eq_ok_iff.mp done)
  | snap interval unit anchor => exact snap_normalized (mapError_eq_ok_iff.mp done)

/-- The invariant of a step. A call that fails leaves the timestamp as it was. -/
theorem step_normalized (normal : t.Normalized) {call : Call}
    (copied : ∀ other, call = .update other → other.Normalized)
    : (t.step call).1.Normalized := by
  cases done : t.called call with
  | error cause =>
      rw [step, done]
      exact normal
  | ok next =>
      rw [step, done]
      exact called_normalized (.inl normal) copied done

-----------------------------------------------------------------------------------------
-- All ways to make a timestamp
-----------------------------------------------------------------------------------------

/-- A timestamp that was made in one of the ways there are, and changed by any calls afterwards. A
stored text counts if its nanoseconds are less than a second, and any other timestamp as soon as a
call has kept nothing of it.
-/
inductive Made : Timestamp → Prop where
  | of (epoch nanos : Int64) : Made (.of epoch nanos)
  | ofEpoch (epoch : Int64) : Made (.ofEpoch epoch)
  | ofMillis (millis : Int64) : Made (.ofMillis millis)
  | max : Made max
  | initial : Made default
  | stored {text : String} {t : Timestamp} (read : Json.decode? decoder text = some t)
      (within : t.Normalized) : Made t
  | renewed {t next : Timestamp} {call : Call} (renews : call.Renews)
      (done : t.called call = .ok next) : Made next
  | step {t : Timestamp} {call : Call} (made : Made t)
      (copied : ∀ other, call = .update other → Made other) : Made (t.step call).1

/-- All of them are normalized, by induction on how they were made. -/
theorem Made.normalized (made : t.Made)
    : t.Normalized := by
  induction made with
  | of epoch nanos => exact of_normalized epoch nanos
  | ofEpoch epoch => exact normalized_of_nanos_eq_zero rfl
  | ofMillis millis => exact of_normalized _ _
  | max => exact normalized_of_nanos_eq_zero rfl
  | initial => exact normalized_of_nanos_eq_zero rfl
  | stored _ within => exact within
  | renewed renews done =>
      refine called_normalized (.inr renews) ?_ done
      rintro other rfl
      exact renews.elim
  | step _ _ ih copied => exact step_normalized ih copied

/-- Calls made one after the other make a timestamp of a timestamp, by induction on the calls. -/
theorem Made.run {calls : List Call} (made : t.Made)
    (copied : ∀ other, .update other ∈ calls → other.Made)
    : (t.run calls).1.Made := by
  induction calls generalizing t with
  | nil => exact made
  | cons call rest ih =>
      have stepped : (t.step call).1.Made := by
        refine .step made ?_
        rintro other rfl
        exact copied other List.mem_cons_self
      apply ih stepped
      intro other called
      exact copied other (List.mem_cons_of_mem call called)

end Timestamp

-----------------------------------------------------------------------------------------
-- Order and windows
-----------------------------------------------------------------------------------------

/-- A window over normalized timestamps is one over exact instants. -/
theorem EntryContext.window_eq_instants {α : Type} {ctx : EntryContext} {samples : List (Sample α)}
    (start : ctx.start.Normalized) (stop : ctx.stop.Normalized)
    (times : ∀ sample ∈ samples, sample.time.Normalized)
    : ctx.window samples
      = (samples.dropWhile fun sample => sample.time.instant < ctx.start.instant).takeWhile
          fun sample => sample.time.instant ≤ ctx.stop.instant := by
  have dropped : samples.dropWhile (fun sample => sample.time < ctx.start)
      = samples.dropWhile fun sample => sample.time.instant < ctx.start.instant := by
    apply dropWhile_congr
    intro sample member
    exact decide_eq_decide.mpr (Timestamp.lt_iff_instant (times sample member) start)
  rw [window, dropped]
  apply takeWhile_congr
  intro sample member
  have listed := (List.dropWhile_sublist _).mem member
  exact decide_eq_decide.mpr (Timestamp.le_iff_instant (times sample listed) stop)

namespace Timestamp

/-- However a timestamp was made, calls leave its nanoseconds within a second, whether they succeed
or fail and in any order. So to compare it by seconds and then by nanoseconds is to compare the
exact instants, and a window of such timestamps holds the samples of its span of time.
-/
theorem made_normalized {t : Timestamp} {calls : List Call} (made : t.Made)
    (copied : ∀ other, .update other ∈ calls → other.Made)
    : (t.run calls).1.Normalized
      ∧ (∀ other : Timestamp,
          other.Made →
          compare (t.run calls).1 other = compare (t.run calls).1.instant other.instant
          ∧ ∀ comparison : Comparison,
              holds comparison (t.run calls).1 other
                = comparison.accepts (compare (t.run calls).1.instant other.instant))
      ∧ ∀ (α : Type) (ctx : EntryContext) (samples : List (Sample α)),
          ctx.start.Made →
          ctx.stop.Made →
          (∀ sample ∈ samples, sample.time.Made) →
          ctx.window samples
            = (samples.dropWhile fun sample =>
                sample.time.instant < ctx.start.instant).takeWhile
                fun sample => sample.time.instant ≤ ctx.stop.instant := by
  have normal := (made.run copied).normalized
  refine ⟨normal, ?_, ?_⟩
  · intro other madeOther
    have same := compare_eq_compare_instant normal madeOther.normalized
    refine ⟨same, ?_⟩
    intro comparison
    rw [holds, same]
  · intro α ctx samples start stop times
    apply EntryContext.window_eq_instants start.normalized stop.normalized
    intro sample member
    exact (times sample member).normalized

/-- Moves across the epoch, snaps to no interval, and takes over a timestamp with negative
nanoseconds.
-/
def restless : List Call :=
  [.add (.span 1500000000), .snap 0 .hours .sunday, .subtract (.period 0 1 0), .update (.of 5 (-7)),
    .add (.period 500000 0 0)]

/-- Two of the calls fail, and the timestamp ends seven nanoseconds before its fifth second. -/
theorem made_normalized_restless
    : (ofMillis (-1)).Made
      ∧ (∀ other, .update other ∈ restless → other.Made)
      ∧ ((ofMillis (-1)).run restless).2.map Except.isOk = [true, false, true, true, false]
      ∧ ((ofMillis (-1)).run restless).1 = ⟨4, 999999993⟩
      ∧ ((ofMillis (-1)).run restless).1.Normalized
      ∧ holds .lt ((ofMillis (-1)).run restless).1 (.ofEpoch 5) = true := by
  have copied (other : Timestamp) (listed : .update other ∈ restless) : other.Made := by
    have same : other = .of 5 (-7) := by simpa [restless] using listed
    exact same ▸ .of 5 (-7)
  obtain ⟨normal, ordered, _⟩ := made_normalized (.ofMillis (-1)) copied
  refine ⟨.ofMillis (-1), copied, by decide +kernel, by decide +kernel, normal, ?_⟩
  rw [(ordered _ (.ofEpoch 5)).2 .lt]
  decide +kernel

/-- A stored text may bring more than a second of nanoseconds. What is read from this one counts as
earlier than a timestamp whose instant is before its own.
-/
theorem stored_unnormalized
    : ∃ t,
        Json.decode? decoder "\x7b\"epoch\":0,\"nanos\":1500000000\x7d" = some t
        ∧ ¬t.Normalized
        ∧ holds .lt t (.ofEpoch 1) = true
        ∧ (ofEpoch 1).instant < t.instant := by
  refine ⟨⟨0, 1500000000⟩, by decide +kernel, ?_, by decide, by decide⟩
  rintro ⟨_, below⟩
  exact absurd below (by decide)

end Timestamp

end SeriesWire
