import SeriesWire.Proofs.Series.DistinctNames
import SeriesWire.Proofs.Series.Window

/-! What a query shows of values in any order of time.
It passes over the values before the start that lead a series, and takes what follows up to the
first value behind the stop. So nothing behind the stop is shown. But a value that comes late,
behind one that is shown, is not compared with the start any more, and is shown even if it lies
before it.
-/

namespace SeriesWire

/-- The same query without ends. -/
def EntryContext.unbounded (ctx : EntryContext) : EntryContext :=
  { ctx with start := .least, stop := .greatest }

/-- What a query takes of a strand. Statuses and events have no window. -/
def Strand.clip (ctx : EntryContext) : Strand → Strand
  | .numeric samples => .numeric (ctx.window samples)
  | .summary samples => .summary (ctx.window samples)
  | .array samples => .array (ctx.window samples)
  | .status nameSpace values => .status nameSpace values
  | .events values => .events values

variable {ctx : EntryContext}

-----------------------------------------------------------------------------------------
-- Nothing but what is taken matters
-----------------------------------------------------------------------------------------

theorem EntryContext.window_unbounded {α : Type} (samples : List (Sample α))
    : ctx.unbounded.window samples = samples := by
  have early : samples.dropWhile (fun sample => sample.time < ctx.unbounded.start) = samples := by
    refine List.dropWhile_eq_self_iff.mpr fun _ early => ?_
    exact Std.not_lt.mpr (Timestamp.least_le _) (of_decide_eq_true early)
  have inside : samples.takeWhile (fun sample => sample.time ≤ ctx.unbounded.stop) = samples := by
    refine List.takeWhile_eq_self_iff.mpr fun sample _ => ?_
    exact decide_eq_true (Timestamp.le_greatest sample.time)
  rw [window, early, inside]

/-- What a strand adds is what it adds of the values that are taken. -/
theorem Gathering.addStrand_clip (gathering : Gathering) (strand : Strand)
    : gathering.addStrand ctx.unbounded (strand.clip ctx) = gathering.addStrand ctx strand := by
  cases strand with
  | numeric samples =>
      simp only [Strand.clip, addStrand, EntryContext.numericMembers, EntryContext.window_unbounded]
      rfl
  | summary samples =>
      simp only [Strand.clip, addStrand, EntryContext.summaryMembers, EntryContext.window_unbounded]
      rfl
  | array samples =>
      simp only [Strand.clip, addStrand, EntryContext.arrayMembers, EntryContext.window_unbounded]
      rfl
  | status nameSpace values => rfl
  | events values => rfl

/-- A query shows what the query without ends shows of the values that are taken. -/
theorem EntryContext.entries_clip (id : SeriesName) (strands : List Strand)
    : ctx.unbounded.entries id (strands.map (Strand.clip ctx)) = ctx.entries id strands := by
  have gathered : Gathering.ofStrands ctx.unbounded (strands.map (Strand.clip ctx))
      = Gathering.ofStrands ctx strands := by
    simp only [Gathering.ofStrands, List.foldl_map, Gathering.addStrand_clip]
  have hidden : Strand.hidesMetric ∘ Strand.clip ctx = Strand.hidesMetric := by
    funext strand
    cases strand <;> rfl
  rw [entries, entries, gathered, List.any_map, hidden]

-----------------------------------------------------------------------------------------
-- What is taken
-----------------------------------------------------------------------------------------

/-- The query cuts the times that it takes out of all times. What it leaves out before them lies
before the start, and what it leaves out behind them begins behind the stop.
-/
structure EntryContext.Cut (ctx : EntryContext) (times before taken after : List Timestamp)
    : Prop where
  parts : times = before ++ taken ++ after
  early : ∀ time ∈ before, time < ctx.start
  begun : ∀ time ∈ taken.head?, ctx.start ≤ time
  ended : ∀ time ∈ taken, time ≤ ctx.stop
  behind : ∀ time ∈ after.head?, ctx.stop < time

namespace Strand

theorem times_clip (strand : Strand)
    : (strand.clip ctx).times
      = (strand.times.dropWhile fun time => time < ctx.start).takeWhile
          fun time => time ≤ ctx.stop := by
  have window {α : Type} (samples : List (Sample α))
      : (ctx.window samples).map Sample.time
        = ((samples.map Sample.time).dropWhile fun time => time < ctx.start).takeWhile
            fun time => time ≤ ctx.stop := by
    rw [List.dropWhile_map, List.takeWhile_map]
    rfl
  cases strand with
  | numeric samples => exact window samples
  | summary samples => exact window samples
  | array samples => exact window samples
  | status nameSpace values => rfl
  | events values => rfl

theorem exists_cut (strand : Strand)
    : ∃ before after, ctx.Cut strand.times before (strand.clip ctx).times after := by
  have accepted {p : Timestamp → Prop} [DecidablePred p] {times : List Timestamp}
      : ∀ time ∈ times.takeWhile fun time => p time, p time :=
    fun time member => of_decide_eq_true (@List.mem_takeWhile_imp _ (fun time => p time) _ _ member)
  rw [times_clip]
  generalize strand.times = times
  generalize rest : times.dropWhile (fun time => time < ctx.start) = left
  refine ⟨times.takeWhile fun time => time < ctx.start,
    left.dropWhile fun time => time ≤ ctx.stop, ?_, accepted, ?_, accepted, ?_⟩
  · rw [List.append_assoc, List.takeWhile_append_dropWhile, ← rest,
      List.takeWhile_append_dropWhile]
  · intro time first
    rw [List.head?_takeWhile, Option.mem_def, Option.filter_eq_some_iff, ← rest] at first
    have begun := head?_dropWhile first.1
    exact Std.not_lt.mp (of_decide_eq_false begun)
  · intro time first
    have behind := head?_dropWhile first
    exact Std.not_le.mp (of_decide_eq_false behind)

/-- In order of time the values are taken that lie in the query. -/
theorem times_clip_of_ascending {strand : Strand} (ascending : strand.times.Pairwise (· ≤ ·))
    : (strand.clip ctx).times
      = strand.times.filter fun time => ctx.start ≤ time ∧ time ≤ ctx.stop :=
  strand.times_clip.trans (ctx.between_of_ascending ascending)

/-- All that is taken lies in the query, exactly if no value up to the first behind the stop comes
before the start, but behind one that does not.
-/
theorem forall_mem_times_clip_iff (strand : Strand) (proper : ctx.start ≤ ctx.stop)
    : (∀ time ∈ (strand.clip ctx).times, ctx.start ≤ time ∧ time ≤ ctx.stop)
      ↔ (strand.times.takeWhile fun time => time ≤ ctx.stop).Pairwise fun a b =>
          ctx.start ≤ a → ctx.start ≤ b := by
  have earlier (time : Timestamp) (_ : time ∈ strand.times)
      : decide (time < ctx.start) = true → decide (time ≤ ctx.stop) = true := by
    simp only [decide_eq_true_eq]
    exact fun early => Std.le_trans (Std.le_of_lt early) proper
  have left := @forall_mem_dropWhile_iff _ (strand.times.takeWhile fun time => time ≤ ctx.stop)
    fun time => time < ctx.start
  rw [← takeWhile_dropWhile_comm earlier, ← times_clip] at left
  obtain ⟨_, _, cut⟩ := @exists_cut ctx strand
  simp only [decide_eq_false_iff_not, Std.not_lt] at left
  rw [← left]
  exact forall₂_congr fun time taken => and_iff_left (cut.ended time taken)

end Strand

namespace EntryContext

/-- What is written for a query is what the query without ends shows of the values that are taken.
Those are cut out of all values of their strand: they begin with the first that does not come before
the start and end with the last before one behind the stop. In order of time they are the values
that lie in the query. In any order all of them lie in it exactly if no value comes before the
start, but behind one that does not, up to the first behind the stop.
-/
theorem entries_in_any_order (ctx : EntryContext) (id : SeriesName) (strands : List Strand)
    : ctx.Encodes id strands (ctx.entries id strands)
      ∧ ctx.unbounded.entries id (strands.map (Strand.clip ctx)) = ctx.entries id strands
      ∧ ∀ strand ∈ strands,
          (∃ before after, ctx.Cut strand.times before (strand.clip ctx).times after)
          ∧ (strand.times.Pairwise (· ≤ ·)
            → (strand.clip ctx).times
              = strand.times.filter fun time => ctx.start ≤ time ∧ time ≤ ctx.stop)
          ∧ (ctx.start ≤ ctx.stop
            → ((∀ time ∈ (strand.clip ctx).times, ctx.start ≤ time ∧ time ≤ ctx.stop)
              ↔ (strand.times.takeWhile fun time => time ≤ ctx.stop).Pairwise fun a b =>
                  ctx.start ≤ a → ctx.start ≤ b)) := by
  refine ⟨ctx.encodes_entries id strands, ctx.entries_clip id strands,
    fun strand _ => ⟨strand.exists_cut, ?_, ?_⟩⟩
  · exact Strand.times_clip_of_ascending
  · exact strand.forall_mem_times_clip_iff

/-- A query from the tenth second. -/
def fromTen : EntryContext :=
  { unaligned .first with start := ⟨10, 0⟩ }

/-- Numbers of which the second comes late and before the start. -/
def straggling : Strand :=
  .numeric [⟨⟨10, 0⟩, some (.int 1)⟩, ⟨⟨5, 0⟩, some (.int 2)⟩, ⟨⟨20, 0⟩, some (.int 3)⟩]

/-- Numbers in order of time around both ends. -/
def inOrder : Strand :=
  .numeric [⟨⟨9, 999999999⟩, none⟩, ⟨⟨10, 0⟩, none⟩, ⟨⟨100, 0⟩, none⟩, ⟨⟨100, 1⟩, none⟩]

/-- Beside numbers in order, of which those in the query are shown, the late one is taken. -/
theorem entries_in_any_order_straggling
    : inOrder.times.Pairwise (· ≤ ·)
      ∧ fromTen.start ≤ fromTen.stop
      ∧ fromTen.Encodes ⟨"m", .empty, []⟩ [inOrder, straggling]
        (fromTen.unbounded.entries ⟨"m", .empty, []⟩
          [inOrder.clip fromTen, straggling.clip fromTen])
      ∧ (inOrder.clip fromTen).times = [⟨10, 0⟩, ⟨100, 0⟩]
      ∧ ¬(∀ time ∈ (straggling.clip fromTen).times,
          fromTen.start ≤ time ∧ time ≤ fromTen.stop) := by
  have ascending : inOrder.times.Pairwise (· ≤ ·) := by decide
  have proper : fromTen.start ≤ fromTen.stop := by decide
  obtain ⟨written, clipped, shown⟩ :=
    entries_in_any_order fromTen ⟨"m", .empty, []⟩ [inOrder, straggling]
  obtain ⟨_, regular, _⟩ := shown inOrder (by simp)
  obtain ⟨_, _, late⟩ := shown straggling (by simp)
  rw [← clipped] at written
  refine ⟨ascending, proper, written, (regular ascending).trans (by decide), ?_⟩
  rw [late proper]
  decide

/-- The late number is written, although it comes before the start. -/
theorem entries_straggling
    : fromTen.Encodes ⟨"m", .empty, []⟩ [straggling]
        (fromTen.entries ⟨"m", .empty, []⟩ [straggling])
      ∧ Json.itemTexts (fromTen.entries ⟨"m", .empty, []⟩ [straggling])
        = ["\x7b\"metric\":\"m\",\"tags\":\x7b\x7d,\"aggregateTags\":[],"
          ++ "\"NumericType\":\x7b\"10\":1,\"5\":2,\"20\":3\x7d\x7d"]
      ∧ (⟨5, 0⟩ : Timestamp) < fromTen.start := by
  exact ⟨encodes_entries _ _ _, by decide +kernel, by decide⟩

end EntryContext

end SeriesWire
