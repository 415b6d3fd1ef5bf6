import SeriesWire.Proofs.Instant.Order
import SeriesWire.Proofs.Series.Gathering
import SeriesWire.Proofs.Series.PackedWindow
import SeriesWire.Shard.Table

/-! The window of a query over samples in order of time.
Passing over what comes before and stopping behind leaves the samples that lie in the window, so it
makes no difference whether a series is read whole or in parts.
-/

namespace SeriesWire

namespace Point

def sample (point : Point) : Sample Number :=
  ⟨⟨point.time, 0⟩, some point.number⟩

/-- The member that the sample adds to its series. -/
def member (point : Point) : String × Json :=
  (toString point.second, point.number.toJson)

/-- The samples that lie in a window of timestamps, by whole seconds. -/
def shown (start stop : Timestamp) (points : List Point) : List Point :=
  points.filter (within start.epoch.toInt stop.epoch.toInt)

def Ordered (points : List Point) : Prop :=
  points.Pairwise fun a b => a.second ≤ b.second

end Point

namespace EntryContext

/-- What is left of items in order of time, from the first that does not come before the start up to
the first behind the stop, is a filter.
-/
theorem between_of_ascending {α : Type} (ctx : EntryContext) {time : α → Timestamp}
    {items : List α} (ascending : items.Pairwise fun a b => time a ≤ time b)
    : (items.dropWhile fun item => time item < ctx.start).takeWhile
        (fun item => time item ≤ ctx.stop)
      = items.filter fun item => ctx.start ≤ time item ∧ time item ≤ ctx.stop := by
  have early : items.Pairwise fun a b =>
      decide (time b < ctx.start) = true → decide (time a < ctx.start) = true := by
    apply ascending.imp
    intro a b le
    simpa only [decide_eq_true_eq] using Std.lt_of_le_of_lt le
  have inside : items.Pairwise fun a b =>
      decide (time b ≤ ctx.stop) = true → decide (time a ≤ ctx.stop) = true := by
    apply ascending.imp
    intro a b le
    simpa only [decide_eq_true_eq] using Std.le_trans le
  rw [dropWhile_eq_filter early, takeWhile_eq_filter (inside.filter _), List.filter_filter]
  apply List.filter_congr
  intro item _
  rw [Bool.eq_iff_iff]
  simp only [Bool.and_eq_true, Bool.not_eq_true', decide_eq_true_eq, decide_eq_false_iff_not,
    Std.not_lt]
  exact and_comm

/-- A window over samples in order of time is a filter. -/
theorem window_of_ascending {α : Type} (ctx : EntryContext) {samples : List (Sample α)}
    (ascending : samples.Pairwise fun a b => a.time ≤ b.time)
    : ctx.window samples
      = samples.filter fun sample => ctx.start ≤ sample.time ∧ sample.time ≤ ctx.stop :=
  ctx.between_of_ascending ascending

/-- A window of whole seconds over samples in order of time is a filter. -/
theorem window_samples {ctx : EntryContext} (start : ctx.start.nanos = 0)
    (stop : ctx.stop.nanos = 0) {points : List Point} (ordered : Point.Ordered points)
    : ctx.window (points.map Point.sample)
      = (Point.shown ctx.start ctx.stop points).map Point.sample := by
  have ascending : (points.map Point.sample).Pairwise fun a b => a.time ≤ b.time := by
    rw [List.pairwise_map]
    apply ordered.imp
    intro a b le
    rw [Timestamp.le_iff_epoch rfl rfl, Point.sample, Point.sample, a.toInt_time, b.toInt_time]
    exact Int.ofNat_le.mpr le
  rw [ctx.window_of_ascending ascending, List.filter_map, Point.shown]
  congr 1
  apply List.filter_congr
  intro point _
  apply decide_eq_decide.mpr
  rw [Timestamp.le_iff_epoch start rfl, Timestamp.le_iff_epoch rfl stop, Point.sample,
    point.toInt_time]

/-- Outside of a grid, samples that lie in the window make one object of seconds. -/
theorem numericMembers_samples {ctx : EntryContext} (start : ctx.start.nanos = 0)
    (stop : ctx.stop.nanos = 0) (gridless : ctx.grid = none) (seconds : ctx.options.millis = false)
    {points : List Point} (ordered : Point.Ordered points)
    : ctx.numericMembers (points.map Point.sample)
      = if Point.shown ctx.start ctx.stop points = [] then []
        else
          [("NumericType",
            .object ((Point.shown ctx.start ctx.stop points).map Point.member))] := by
  have key (point : Point) : ctx.key point.sample.time = toString point.second := by
    have text : toString point.time = toString point.second := by
      change toString point.time.toInt = _
      rw [point.toInt_time]
      rfl
    simpa [EntryContext.key, seconds, Point.sample] using text
  rw [numericMembers, window_samples start stop ordered]
  cases Point.shown ctx.start ctx.stop points with
  | nil => rfl
  | cons first rest =>
      have value (point : Point) : Number.toJson? point.sample.value = point.number.toJson := rfl
      simp [aligned, gridless, key, value, Point.member]

/-- A series of samples has one entry for those that lie in the window, and none without such. -/
theorem entries_samples {ctx : EntryContext} (start : ctx.start.nanos = 0)
    (stop : ctx.stop.nanos = 0) (gridless : ctx.grid = none) (seconds : ctx.options.millis = false)
    {points : List Point} (ordered : Point.Ordered points) (id : SeriesName)
    : ctx.entries id [.numeric (points.map Point.sample)]
      = if Point.shown ctx.start ctx.stop points = [] then []
        else
          [.object (id.members true
            ++ [("NumericType",
              .object ((Point.shown ctx.start ctx.stop points).map Point.member))])] := by
  have body : Gathering.ofStrands ctx [.numeric (points.map Point.sample)]
      = ⟨ctx.numericMembers (points.map Point.sample), false, []⟩ := by
    simp [Gathering.ofStrands, Gathering.addStrand, Gathering.addNumbers, Gathering.empty]
  rw [entries, body, numericMembers_samples start stop gridless seconds ordered]
  by_cases h : Point.shown ctx.start ctx.stop points = [] <;> simp [h, Strand.hidesMetric]

end EntryContext

-----------------------------------------------------------------------------------------
-- Shards
-----------------------------------------------------------------------------------------

/-- The words of an array between its bounds are those of the samples. -/
structure PackedArray.Carries (array : PackedArray) (points : List Point) : Prop where
  ordered : array.offset ≤ array.stop
  bounded : array.stop ≤ array.words.size
  words : (array.words.toList.take array.stop).drop array.offset = points.flatMap Point.words

def Point.packed (point : Point) : Bool × Int64 × Number :=
  (false, point.time, point.number)

/-- An array that is packed from samples carries them. -/
theorem PackedArray.carries_ofSamples (points : List Point)
    : (ofSamples (points.map Point.packed)).Carries points := by
  have words : (ofSamples (points.map Point.packed)).words.toList = points.flatMap Point.words := by
    rw [ofSamples, List.flatMap_map]
    rfl
  exact ⟨Nat.zero_le _, Nat.le_refl _, List.take_length.trans words⟩

namespace Packed

/-- Samples at whole seconds are read as their records. -/
theorem records_words (points : List Point)
    : records (points.flatMap Point.words) = points.map Point.record := by
  have words : points.flatMap Point.words = (points.map Point.packed).flatMap wordsOf := by
    rw [List.flatMap_map]
    rfl
  rw [words, records_flatMap_wordsOf, List.map_map]
  exact List.map_congr_left fun point _ => recordOf_point point

/-- Every sample takes two words, so none is left over. -/
theorem not_cutOff_of_carries {array : PackedArray} {points : List Point}
    (carries : array.Carries points)
    : ¬array.CutOff := by
  have even := length_flatMap_wordsOf (points.map Point.packed)
  have words : (points.map Point.packed).flatMap wordsOf = array.slice := by
    rw [List.flatMap_map, PackedArray.slice, carries.words]
    rfl
  have size := carries.bounded
  rw [words, PackedArray.slice, List.length_drop, List.length_take, Array.length_toList,
    Nat.min_eq_left size] at even
  rw [PackedArray.CutOff]
  omega

/-- A window over an array reads the samples that lie in it. -/
theorem window_of_carries {array : PackedArray} {points : List Point}
    (carries : array.Carries points) (ordered : Point.Ordered points) (first last : Int)
    : (do (← WindowDecoder.of array first last).collect)
      = .ok ((points.filter (Point.within first last)).map Point.record) := by
  have valid : array.Valid := ⟨carries.ordered, carries.bounded⟩
  have read : records array.slice = points.map Point.record := by
    rw [PackedArray.slice, carries.words, records_words]
  have ascending : (points.map Point.record).Pairwise fun a b => a.seconds ≤ b.seconds :=
    List.pairwise_map.mpr ordered
  rw [valid.collect_window, if_neg fun cut => not_cutOff_of_carries carries cut.1, read,
    windowed_of_ascending ascending, List.filter_map]
  rfl

end Packed

end SeriesWire
