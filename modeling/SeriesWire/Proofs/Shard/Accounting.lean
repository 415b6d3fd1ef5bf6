import SeriesWire.Proofs.Shard.Flushing
import SeriesWire.Proofs.SortedMap.ByteOrder

/-! A flush loses and invents nothing.
Whatever shards were offered before, the accepted ones are all written or counted as unresolved, in
one order of sources, series and fragments.
-/

namespace SeriesWire

open Json

namespace Ledger

/-- How the results of a ledger are laid out. -/
structure Layout (ledger : Ledger) (registry : Registry) : Prop where
  /-- The slots are those of the accepted shards, each once. -/
  slots
    : ledger.slots.Nodup ∧ ∀ slot, slot ∈ ledger.slots ↔ ∃ filing ∈ ledger, filing.slot = slot
  /-- Every slot has an identity or none. -/
  counted
    : (ledger.slots.countP fun slot => (ledger.identity? registry slot).isSome)
        + (ledger.slots.countP fun slot => (ledger.identity? registry slot).isNone)
      = ledger.slots.length
  /-- A source has a result exactly if one of its slots has an identity. -/
  results
    : ledger.entries registry
      = (ledger.sources.filter fun source => !(ledger.resolved registry source).isEmpty).map
          (ledger.sourceEntry registry)
  /-- The sources are those of the accepted shards, in ascending order of their bytes. -/
  sources
    : (∀ source, source ∈ ledger.sources ↔ ∃ filing ∈ ledger, filing.source = source)
      ∧ ledger.sources.Pairwise fun a b => a.toUTF8.data.toList < b.toUTF8.data.toList
  /-- A result is an object of its source and one data entry for each slot with an identity. -/
  objects
    : ∀ source,
        (ledger.sourceEntry registry source).toJson
        = .object [
            ("source", .string source),
            ("data", .array ((ledger.resolved registry source).map fun (hash, id) =>
              ledger.seriesEntry (source, hash) id))]
  /-- The slots with an identity are those whose first shard has a registered key, in ascending
  order of their hashes. -/
  series
    : ∀ source,
        (∀ hash id,
          (hash, id) ∈ ledger.resolved registry source
          ↔ ∃ first rest,
              ledger.ofSlot (source, hash) = first :: rest ∧ registry.get? first.key = some id)
        ∧ (ledger.resolved registry source).Pairwise fun a b => a.1 < b.1
  /-- The samples of a slot are its fragments, joined by commas. -/
  samples
    : ∀ slot,
        (ledger.samples slot).text
        = "\x7b" ++ String.intercalate ","
            ((ledger.fragments slot).map fun fragment => ShardTable.fragment fragment.2) ++ "\x7d"
  /-- There is one fragment for every start, that of the last shard with it, in ascending order. -/
  fragments
    : ∀ slot,
        (∀ start records,
          (start, records) ∈ ledger.fragments slot
          ↔ ∃ last,
              (ledger.ofStart slot start).getLast? = some last ∧ last.records = records)
        ∧ (ledger.fragments slot).Pairwise fun a b => a.1 < b.1

variable (ledger : Ledger) (registry : Registry)

theorem entries_eq_filter
    : ledger.entries registry
      = (ledger.sources.filter fun source => !(ledger.resolved registry source).isEmpty).map
          (ledger.sourceEntry registry) := by
  rw [entries, entriesOf, List.filter_map]
  congr 2
  funext source
  simp [sourceEntry]

theorem mem_sources {source : String}
    : source ∈ ledger.sources ↔ ∃ filing ∈ ledger, filing.source = source := by
  rw [sources, mem_inOrder, List.mem_map]

theorem sources_ascend
    : ledger.sources.Pairwise fun a b => a.toUTF8.data.toList < b.toUTF8.data.toList :=
  (pairwise_inOrder _).imp fun h => compare_eq_lt_iff_bytes.mp h

theorem mem_resolved {source : String} {hash : UInt64} {id : SeriesName}
    : (hash, id) ∈ ledger.resolved registry source
      ↔ ∃ first rest,
          ledger.ofSlot (source, hash) = first :: rest ∧ registry.get? first.key = some id := by
  simp only [resolved, List.mem_filterMap, Option.map_eq_some_iff, Prod.mk.injEq, mem_hashes]
  constructor
  · rintro ⟨_, used, _, known, rfl, rfl⟩
    cases h : ledger.ofSlot (source, _) with
    | nil => exact absurd (List.mem_dedup.mp used) (ofSlot_eq_nil_iff.mp h)
    | cons first rest => exact ⟨first, rest, rfl, by simpa [identity?, key, h] using known⟩
  · rintro ⟨first, rest, h, known⟩
    have used : (source, hash) ∈ ledger.slots := by
      by_contra unused
      rw [slots, List.mem_dedup, ← ofSlot_eq_nil_iff, h] at unused
      exact absurd unused (by simp)
    exact ⟨hash, used, id, by simpa [identity?, key, h] using known, rfl, rfl⟩

theorem resolved_ascend (source : String)
    : (ledger.resolved registry source).Pairwise fun a b => a.1 < b.1 := by
  refine List.pairwise_filterMap.mpr ((pairwise_inOrder _).imp ?_)
  intro first second less a ha b hb
  obtain ⟨_, _, rfl⟩ := Option.map_eq_some_iff.mp ha
  obtain ⟨_, _, rfl⟩ := Option.map_eq_some_iff.mp hb
  exact compareOfLessAndEq_eq_lt.mp less

theorem mem_fragments {slot : String × UInt64} {start : Timestamp} {records : List Packed.Record}
    : (start, records) ∈ ledger.fragments slot
      ↔ ∃ last, (ledger.ofStart slot start).getLast? = some last ∧ last.records = records := by
  simp only [fragments, List.mem_map, Prod.mk.injEq]
  constructor
  · rintro ⟨_, present, rfl, rfl⟩
    obtain ⟨last, h⟩ := mem_starts_iff.mp present
    exact ⟨last, h, (recordsAt_of_last h).symm⟩
  · rintro ⟨last, h, rfl⟩
    exact ⟨start, mem_starts_iff.mpr ⟨last, h⟩, rfl, recordsAt_of_last h⟩

theorem fragments_ascend (slot : String × UInt64)
    : (ledger.fragments slot).Pairwise fun a b => a.1 < b.1 :=
  List.pairwise_map.mpr (pairwise_inOrder _)

/-- The data of a source are its entries, one for each slot that has an identity. -/
theorem flatten_series (source : String)
    : (ledger.sourceEntry registry source).series.flatten
      = (ledger.resolved registry source).map fun (hash, id) =>
          ledger.seriesEntry (source, hash) id := by
  rw [sourceEntry, ← List.flatMap_def, List.map_eq_flatMap]

theorem layout : ledger.Layout registry where
  slots := ⟨List.nodup_dedup _, fun _ => mem_slots⟩
  counted := ledger.countP_identity registry ledger.slots
  results := ledger.entries_eq_filter registry
  sources := ⟨fun _ => ledger.mem_sources, ledger.sources_ascend⟩
  objects source := by
    rw [SourceEntry.toJson, flatten_series]
    rfl
  series source := ⟨fun _ _ => ledger.mem_resolved registry, ledger.resolved_ascend registry source⟩
  samples := ledger.text_samples
  fragments slot := ⟨fun _ _ => ledger.mem_fragments, ledger.fragments_ascend slot⟩

end Ledger

namespace ShardTable

/-- Nothing is left to write or to count after a flush. -/
theorem flush_empty (registry : Registry) (writer : Writer)
    : empty.flush registry writer = (empty, writer, .ok ⟨0, 0⟩) :=
  rfl

/-- What becomes of any offers to a new table. Each is answered by itself. The table then counts the
slots of the accepted shards; a flush into an array writes the slots that have an identity, laid out
by source, hash and start, and counts the others. It empties the table, so a second one does
nothing.
-/
theorem ingestAll_flush (offers : List Offer) (registry : Registry) {stream : Stream}
    (unlimited : stream.room = none) (count : Nat) (outer : List Scope)
    : ∃ table next,
        empty.ingestAll offers = (table, offers.map Offer.outcome)
        ∧ table.seriesCount = (Ledger.of offers).slots.length
        ∧ table.flush registry ⟨stream, ⟨⟨.array, count⟩ :: outer, false⟩⟩
          = (.empty,
              ⟨stream.extend (separated count
                  (((Ledger.of offers).entries registry).map fun entry => entry.toJson.text)),
                ⟨⟨.array, next⟩ :: outer, false⟩⟩,
              .ok ⟨(Ledger.of offers).slots.countP fun slot =>
                    ((Ledger.of offers).identity? registry slot).isSome,
                  (Ledger.of offers).slots.countP fun slot =>
                    ((Ledger.of offers).identity? registry slot).isNone⟩)
        ∧ (Ledger.of offers).Layout registry
        ∧ ∀ registry writer, empty.flush registry writer = (empty, writer, .ok ⟨0, 0⟩) := by
  obtain ⟨next, _, flushed⟩ := (Ledger.of offers).flush_table registry unlimited count outer
  refine ⟨(Ledger.of offers).table, next, ?_, ?_, flushed, ?_, flush_empty⟩
  · exact ingestAll_eq [] offers
  · exact (Ledger.of offers).seriesCount_table
  · exact (Ledger.of offers).layout registry

end ShardTable

/-- An offer of one sample at the given second. -/
def Offer.single (hash : UInt64) (second : Int64) (number : Number) : Offer where
  shard := {
    key := ⟨hash, .string⟩
    set := ⟨"m1", "sys", .ofEpoch second, .ofEpoch second, 1⟩
    payload := some (.ofSamples [(false, second, number)]) }
  start := .ofEpoch 0
  stop := .ofEpoch 60

/-- A shard that comes twice and one that nobody knows: two series are kept, and one of them is
written.
-/
theorem ShardTable.ingestAll_flush_redelivered
    : Stream.unlimited.room = none
      ∧ ∃ table after,
          empty.ingestAll [.single 7 30 (.int 5), .single 8 30 (.int 6), .single 7 30 (.int 5)]
            = (table, [.ok .accepted, .ok .accepted, .ok .accepted])
          ∧ table.seriesCount = 2
          ∧ table.flush (Registry.empty.registerAs ⟨7, .string⟩ (.ofMetric "cpu"))
              ⟨.unlimited, ⟨[⟨.array, 0⟩], false⟩⟩
            = (.empty, after, .ok ⟨1, 1⟩) := by
  obtain ⟨table, next, taken, counted, flushed, _⟩ := ingestAll_flush
    [.single 7 30 (.int 5), .single 8 30 (.int 6), .single 7 30 (.int 5)]
    (Registry.empty.registerAs ⟨7, .string⟩ (.ofMetric "cpu")) (rfl : Stream.unlimited.room = none)
    0 []
  refine ⟨rfl, table, _, taken.trans (congrArg _ ?_), counted.trans ?_,
    flushed.trans (congrArg (Prod.mk _) (congrArg (Prod.mk _) (congrArg Except.ok ?_)))⟩
  · decide +kernel
  · decide +kernel
  · decide +kernel

end SeriesWire
