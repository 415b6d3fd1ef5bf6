import SeriesWire.Proofs.Series.Window
import SeriesWire.Proofs.Shard.Ledger

/-! Shards are windowed by whole seconds.
The times of the records and the ends of the query are cut to seconds before they are compared. So a
record that lies in the query is shown, but so is one that comes before the start or behind the end
within the same second, where a series that is delivered whole shows neither.
-/

namespace SeriesWire

namespace Packed

-----------------------------------------------------------------------------------------
-- Exact times
-----------------------------------------------------------------------------------------

/-- A record with the exact time that its header carries. -/
structure Stamped where
  time : Timestamp
  record : Record
  deriving DecidableEq, Repr

/-- The time of a header: milliseconds if it is marked so, and seconds otherwise. -/
def stamp (header : Int64) : Timestamp :=
  let bits := header.toUInt64
  let time := Int64.ofNat (bits &&& timeMask).toNat
  if bits &&& millisFlag ≠ 0 then .ofMillis time else .ofEpoch time

/-- The records that words make, two by two, with their exact times. -/
def stamped : List Int64 → List Stamped
  | header :: payload :: rest => ⟨stamp header, unpack header payload⟩ :: stamped rest
  | _ => []

namespace Stamped

/-- The sample of a whole result that the record stands for. -/
def sample (stamped : Stamped) : Sample Number :=
  ⟨stamped.time, some stamped.record.number⟩

/-- The whole second of the record lies between those of the ends. -/
def within (start stop : Timestamp) (stamped : Stamped) : Bool :=
  start.epoch ≤ stamped.time.epoch ∧ stamped.time.epoch ≤ stop.epoch

end Stamped

theorem toInt_masked (bits : UInt64)
    : (Int64.ofNat (bits &&& timeMask).toNat).toInt = (bits &&& timeMask).toNat := by
  have mask : timeMask.toNat < 2 ^ 63 := by decide
  apply Int64.toInt_ofNat_of_lt
  rw [UInt64.toNat_and]
  exact Nat.lt_of_le_of_lt Nat.and_le_right mask

/-- The header tells the instant exactly. -/
theorem stamp_eq (header : Int64)
    : (stamp header).Normalized
      ∧ (stamp header).instant
        = (header.toUInt64 &&& timeMask).toNat
          * if header.toUInt64 &&& millisFlag ≠ 0 then 1000000 else 1000000000 := by
  have time := toInt_masked header.toUInt64
  have parts := Timestamp.ofMillis_parts (Int64.ofNat (header.toUInt64 &&& timeMask).toNat)
  simp only [stamp, Timestamp.Normalized, Timestamp.instant]
  split
  · omega
  · simp only [Timestamp.ofEpoch, Int64.toInt_zero]
    omega

/-- A record is shown by the whole second of its exact time. -/
theorem epoch_stamp (header payload : Int64)
    : (stamp header).epoch.toInt = (unpack header payload).seconds := by
  obtain ⟨normal, stands⟩ := stamp_eq header
  simp only [Timestamp.Normalized, Timestamp.instant, unpack] at normal stands ⊢
  split at stands
  · rename_i marked
    rw [if_pos marked]
    omega
  · rename_i marked
    rw [if_neg marked]
    omega

theorem records_stamped (words : List Int64)
    : (stamped words).map Stamped.record = records words := by
  induction words using List.twoStepInduction with
  | nil => rfl
  | singleton word => rfl
  | cons_cons header payload rest ih _ => rw [records, stamped, List.map_cons, ih]

/-- A record with its time is made of two of the words, by induction on the words. -/
theorem exists_words_of_mem_stamped {words : List Int64} {record : Stamped}
    (member : record ∈ stamped words)
    : ∃ header payload, record = ⟨stamp header, unpack header payload⟩ := by
  induction words using List.twoStepInduction with
  | nil => cases member
  | singleton word => cases member
  | cons_cons header payload rest ih _ =>
      rcases List.mem_cons.mp member with rfl | later
      · exact ⟨header, payload, rfl⟩
      · exact ih later

theorem epoch_of_mem_stamped {words : List Int64} {record : Stamped}
    (member : record ∈ stamped words)
    : record.time.epoch.toInt = record.record.seconds := by
  obtain ⟨header, payload, rfl⟩ := exists_words_of_mem_stamped member
  exact epoch_stamp header payload

end Packed

-----------------------------------------------------------------------------------------
-- What is shown of a shard
-----------------------------------------------------------------------------------------

open Packed

variable {start stop : Timestamp}

/-- A record that lies in the query exactly does so by its whole second as well. -/
theorem Packed.Stamped.within_of_inside {record : Stamped}
    (inside : start ≤ record.time ∧ record.time ≤ stop)
    : record.within start stop = true :=
  decide_eq_true ⟨Timestamp.epoch_le_of_le inside.1, Timestamp.epoch_le_of_le inside.2⟩

/-- A window of whole seconds reads the records whose whole second lies between those of its ends.
-/
theorem Packed.windowed_stamped {words : List Int64}
    (ascending : (stamped words).Pairwise fun a b => a.time ≤ b.time)
    : windowed start.epoch.toInt stop.epoch.toInt (records words)
      = ((stamped words).filter (Stamped.within start stop)).map Stamped.record := by
  have seconds : (records words).Pairwise fun a b => a.seconds ≤ b.seconds := by
    rw [← records_stamped, List.pairwise_map]
    apply ascending.imp_of_mem
    intro a b first second le
    have epochs := Int64.le_iff_toInt_le.mp (Timestamp.epoch_le_of_le le)
    rw [epoch_of_mem_stamped first, epoch_of_mem_stamped second] at epochs
    exact Int.ofNat_le.mp epochs
  rw [windowed_of_ascending seconds, ← records_stamped, List.filter_map]
  congr 1
  apply List.filter_congr
  intro record member
  apply decide_eq_decide.mpr
  rw [Int64.le_iff_toInt_le, Int64.le_iff_toInt_le, epoch_of_mem_stamped member]

/-- The reader gets to the end of the words if no record comes after the second of the stop. -/
theorem Packed.unended_stamped_iff (proper : start ≤ stop) {words : List Int64}
    : (∀ record ∈ records words, ends start.epoch.toInt stop.epoch.toInt record = false)
      ↔ ∀ record ∈ stamped words, record.time.epoch ≤ stop.epoch := by
  have epochs := Int64.le_iff_toInt_le.mp (Timestamp.epoch_le_of_le proper)
  rw [← records_stamped, List.forall_mem_map]
  apply forall₂_congr
  intro record member
  rw [ends_of_proper epochs, decide_eq_false_iff_not, Int.not_lt, Int64.le_iff_toInt_le,
    epoch_of_mem_stamped member]

namespace EntryContext

variable {ctx : EntryContext} {found : List Stamped}

/-- Delivered whole, the records that lie in the query exactly are shown. All of them are among
those whose whole second lies between those of the ends.
-/
theorem window_stamped (ascending : found.Pairwise fun a b => a.time ≤ b.time)
    : ctx.window (found.map Stamped.sample)
      = ((found.filter (Stamped.within ctx.start ctx.stop)).filter fun record =>
          ctx.start ≤ record.time ∧ record.time ≤ ctx.stop).map Stamped.sample := by
  have samples : (found.map Stamped.sample).Pairwise fun a b => a.time ≤ b.time :=
    List.pairwise_map.mpr ascending
  rw [ctx.window_of_ascending samples, List.filter_map, List.filter_filter]
  congr 1
  apply List.filter_congr
  intro record _
  rw [Bool.eq_iff_iff, Bool.and_eq_true]
  exact ⟨fun inside => ⟨inside, Stamped.within_of_inside (of_decide_eq_true inside)⟩, And.left⟩

/-- Both deliveries show the same records unless one lies in the second of an end, but outside of
the query.
-/
theorem window_stamped_eq_iff (proper : ctx.start ≤ ctx.stop)
    (ascending : found.Pairwise fun a b => a.time ≤ b.time)
    : ctx.window (found.map Stamped.sample)
        = (found.filter (Stamped.within ctx.start ctx.stop)).map Stamped.sample
      ↔ ∀ record ∈ found,
          (record.time.epoch = ctx.start.epoch → ctx.start ≤ record.time)
          ∧ (record.time.epoch = ctx.stop.epoch → record.time ≤ ctx.stop) := by
  rw [window_stamped ascending]
  constructor
  · intro same record member
    have lengths := congrArg List.length same
    rw [List.length_map, List.length_map, List.length_filter_eq_length_iff] at lengths
    have epochs := Timestamp.epoch_le_of_le proper
    have inside (seconds : record.within ctx.start ctx.stop = true)
        : ctx.start ≤ record.time ∧ record.time ≤ ctx.stop :=
      of_decide_eq_true (lengths record (List.mem_filter.mpr ⟨member, seconds⟩))
    constructor
    · intro first
      exact (inside (decide_eq_true ⟨Int64.le_of_eq first.symm, first ▸ epochs⟩)).1
    · intro last
      exact (inside (decide_eq_true ⟨last ▸ epochs, Int64.le_of_eq last⟩)).2
  · intro edges
    congr 1
    apply List.filter_eq_self.mpr
    intro record shown
    obtain ⟨member, seconds⟩ := List.mem_filter.mp shown
    obtain ⟨begun, ended⟩ : ctx.start.epoch ≤ record.time.epoch
        ∧ record.time.epoch ≤ ctx.stop.epoch := of_decide_eq_true seconds
    obtain ⟨first, last⟩ := edges record member
    exact decide_eq_true ⟨Timestamp.le_of_epoch_le begun fun same => first same.symm,
      Timestamp.le_of_epoch_le ended last⟩

end EntryContext

namespace ShardTable

/-- Of a shard in order of time the records are shown whose whole second lies between those of the
ends of the query. Among them are all that lie in the query exactly, which are the ones that are
shown if the series is delivered whole. They are the same unless a record lies before the start or
behind the stop, but within the same second.
-/
theorem ingest_whole_seconds {ctx : EntryContext} {shard : Shard} {array : PackedArray}
    (counted : shard.set.seriesCount ≠ 0) (carried : shard.payload = some array)
    (valid : array.Valid) (proper : ctx.start ≤ ctx.stop)
    (ascending : (stamped array.slice).Pairwise fun a b => a.time ≤ b.time) (table : ShardTable)
    : ∃ shown,
        shown = (stamped array.slice).filter (Stamped.within ctx.start ctx.stop)
        ∧ table.ingest shard ctx.start ctx.stop
          = (if array.CutOff
                ∧ ∀ record ∈ stamped array.slice, record.time.epoch ≤ ctx.stop.epoch then
              .error (.truncated (array.stop - 1))
            else if shown.isEmpty then .ok (table, .skipped)
            else .ok (table.file shard (fragment (shown.map Stamped.record)), .accepted))
        ∧ ctx.window ((stamped array.slice).map Stamped.sample)
          = (shown.filter fun record =>
              ctx.start ≤ record.time ∧ record.time ≤ ctx.stop).map Stamped.sample
        ∧ (ctx.window ((stamped array.slice).map Stamped.sample) = shown.map Stamped.sample
          ↔ ∀ record ∈ stamped array.slice,
              (record.time.epoch = ctx.start.epoch → ctx.start ≤ record.time)
              ∧ (record.time.epoch = ctx.stop.epoch → record.time ≤ ctx.stop)) := by
  refine ⟨_, rfl, ?_, EntryContext.window_stamped ascending,
    EntryContext.window_stamped_eq_iff proper ascending⟩
  have window := @Offer.window_of_counted ⟨shard, ctx.start, ctx.stop⟩ array counted carried
  have idle : (Offer.mk shard ctx.start ctx.stop).idle = .skipped := by
    simp [Offer.idle, counted, carried]
  have ingested := Offer.ingest_eq_window ⟨shard, ctx.start, ctx.stop⟩ table
  rw [window, valid.collect_window, windowed_stamped ascending, idle] at ingested
  refine ingested.trans ?_
  have gets : (array.CutOff ∧ ∀ record ∈ records array.slice,
        ends ctx.start.epoch.toInt ctx.stop.epoch.toInt record = false)
      ↔ array.CutOff ∧ ∀ record ∈ stamped array.slice, record.time.epoch ≤ ctx.stop.epoch :=
    and_congr_right' (unended_stamped_iff proper)
  by_cases cut : array.CutOff ∧ ∀ record ∈ stamped array.slice,
      record.time.epoch ≤ ctx.stop.epoch
  · rw [if_pos (gets.mpr cut), if_pos cut]
    rfl
  · rw [if_neg (mt gets.mp cut), if_neg cut]
    cases (stamped array.slice).filter (Stamped.within ctx.start ctx.stop) with
    | nil => rfl
    | cons record rest => rfl

/-- A query from the middle of a second. -/
def fromHalf : EntryContext where
  start := ⟨10, 500000000⟩
  stop := ⟨20, 0⟩
  grid := none
  options := .standard
  layout := .named
  rollup := none

/-- A record in the second of the start but before it, one in the query, and one in the second of
the stop but behind it.
-/
def edges : PackedArray :=
  .ofSamples [(false, 10, .int 1), (false, 15, .int 2), (true, 20500, .int 3)]

/-- A shard of one series that carries the words. -/
def shardOf (array : PackedArray) : Shard where
  key := ⟨7, .string⟩
  set := ⟨"n1", "ds", ⟨0, 0⟩, ⟨50, 0⟩, 1⟩
  payload := some array

/-- The shard is taken, and it does not show the same as a series that is delivered whole. -/
theorem ingest_whole_seconds_edges
    : (shardOf edges).set.seriesCount ≠ 0
      ∧ (shardOf edges).payload = some edges
      ∧ edges.Valid
      ∧ fromHalf.start ≤ fromHalf.stop
      ∧ (stamped edges.slice).Pairwise (fun a b => a.time ≤ b.time)
      ∧ ∃ shown,
          shown = (stamped edges.slice).filter (Stamped.within fromHalf.start fromHalf.stop)
          ∧ empty.ingest (shardOf edges) fromHalf.start fromHalf.stop
            = .ok (empty.file (shardOf edges) (fragment (shown.map Stamped.record)), .accepted)
          ∧ fromHalf.window ((stamped edges.slice).map Stamped.sample)
            ≠ shown.map Stamped.sample := by
  have valid : edges.Valid := ⟨by decide, by decide⟩
  have ascending : (stamped edges.slice).Pairwise fun a b => a.time ≤ b.time := by decide
  obtain ⟨shown, listed, ingested, _, same⟩ := @ingest_whole_seconds fromHalf (shardOf edges) edges
    (by decide) rfl valid (by decide) ascending empty
  refine ⟨by decide, rfl, valid, by decide, ascending, shown, listed, ?_, ?_⟩
  · rw [ingested, listed]
    decide
  · intro equal
    exact absurd (same.mp equal) (by decide)

/-- Of a shard that is delivered whole only the record in the query is shown. -/
theorem ingest_edges_ne_window
    : empty.ingest (shardOf edges) fromHalf.start fromHalf.stop
        = .ok (empty.file (shardOf edges) "\"10\":1,\"15\":2,\"20\":3", .accepted)
      ∧ fromHalf.window ((stamped edges.slice).map Stamped.sample)
        = [⟨⟨15, 0⟩, some (.int 2)⟩] := by
  exact ⟨by decide +kernel, by decide⟩

end ShardTable

end SeriesWire
