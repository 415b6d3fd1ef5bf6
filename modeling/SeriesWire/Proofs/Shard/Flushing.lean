import Mathlib.Algebra.GroupWithZero.Nat
import SeriesWire.Proofs.Result.SourceEntry
import SeriesWire.Proofs.Shard.LedgerTable

/-! What a flush writes and counts.
Every slot whose key is registered makes one data entry, and every source with such a slot makes one
result. The table is empty afterwards.
-/

namespace SeriesWire

open Json

/-- The shelves that have an identity, as a flush writes them. -/
def ShardTable.found (registry : Registry) (shelves : SortedMap UInt64 Shelf)
    : List (SeriesName × Shelf) :=
  (identified registry shelves).filterMap fun (shelf, id) => id.map fun id => (id, shelf)

/-- A series of shards is an object around its merged fragments, whatever these are. -/
theorem ShardTable.spells_seriesTokens_shelf (id : SeriesName) (shelf : Shelf)
    : Spells (seriesTokens id shelf)
        ("\x7b" ++ String.intercalate "," (memberTexts (id.members true)
          ++ [quoted "NumericType" ++ ":" ++ ("\x7b" ++ shelf.merged ++ "\x7d")]) ++ "\x7d") := by
  have listed := (listsMembers_memberTokens (id.members true)).append
    ((spells_raw ("\x7b" ++ shelf.merged ++ "\x7d")).member "NumericType")
  have spelled := listed.spells_object
  simpa only [seriesTokens, List.cons_append, List.append_assoc, List.nil_append] using spelled

namespace Ledger

/-- The identity that the registry knows for a slot, by the key of its first shard. -/
def identity? (ledger : Ledger) (registry : Registry) (slot : String × UInt64)
    : Option SeriesName :=
  registry.get? (ledger.key slot)

/-- The samples of a slot, fragment by fragment. -/
def samples (ledger : Ledger) (slot : String × UInt64) : Json :=
  .object ((ledger.fragments slot).flatMap fun fragment =>
    fragment.2.map ShardTable.recordMember)

def seriesEntry (ledger : Ledger) (slot : String × UInt64) (id : SeriesName) : Json :=
  .object (id.members true ++ [("NumericType", ledger.samples slot)])

/-- The hashes of a source that have an identity, with it. -/
def resolved (ledger : Ledger) (registry : Registry) (source : String)
    : List (UInt64 × SeriesName) :=
  (ledger.hashes source).filterMap fun hash =>
    (ledger.identity? registry (source, hash)).map fun id => (hash, id)

/-- The result of a source, with an entry for each of its slots that has an identity. -/
def sourceEntry (ledger : Ledger) (registry : Registry) (source : String) : SourceEntry where
  source := source
  grid := none
  series := (ledger.resolved registry source).map fun (hash, id) =>
    [ledger.seriesEntry (source, hash) id]
  nameSpace := none

/-- The results of the given sources that have an entry. -/
def entriesOf (ledger : Ledger) (registry : Registry) (sources : List String)
    : List SourceEntry :=
  (sources.map (ledger.sourceEntry registry)).filter fun entry => !entry.series.isEmpty

/-- The results of a flush. -/
def entries (ledger : Ledger) (registry : Registry) : List SourceEntry :=
  ledger.entriesOf registry ledger.sources

-----------------------------------------------------------------------------------------
-- Slots source by source
-----------------------------------------------------------------------------------------

theorem mem_slots {ledger : Ledger} {slot : String × UInt64}
    : slot ∈ ledger.slots ↔ ∃ filing ∈ ledger, filing.slot = slot := by
  rw [slots, List.mem_dedup, List.mem_map]

theorem mem_hashes {ledger : Ledger} {source : String} {hash : UInt64}
    : hash ∈ ledger.hashes source ↔ (source, hash) ∈ ledger.slots := by
  rw [hashes, mem_inOrder, mem_hashes_iff, slots, List.mem_dedup]

theorem mem_sources_of_mem_slots {ledger : Ledger} {slot : String × UInt64}
    (h : slot ∈ ledger.slots)
    : slot.1 ∈ ledger.sources := by
  obtain ⟨filing, member, rfl⟩ := mem_slots.mp h
  exact mem_inOrder.mpr (List.mem_map.mpr ⟨filing, member, rfl⟩)

/-- The slots of the given sources, source by source and hash by hash. -/
def slotsOf (ledger : Ledger) (sources : List String) : List (String × UInt64) :=
  sources.flatMap fun source => (ledger.hashes source).map fun hash => (source, hash)

/-- Source by source and hash by hash, every slot comes up once. -/
theorem slotsOf_sources_perm (ledger : Ledger)
    : (ledger.slotsOf ledger.sources).Perm ledger.slots := by
  have distinct : (ledger.slotsOf ledger.sources).Nodup := by
    refine List.nodup_flatMap.mpr ⟨fun source _ => ?_, ?_⟩
    · exact (nodup_inOrder _).map fun _ _ he => (Prod.mk.inj he).2
    · refine (nodup_inOrder _).imp fun {first second} hne slot hf hs => hne ?_
      obtain ⟨_, _, rfl⟩ := List.mem_map.mp hf
      obtain ⟨_, _, he⟩ := List.mem_map.mp hs
      exact (Prod.mk.inj he).1.symm
  -- Neither list repeats a slot, so it is enough that they have the same ones.
  refine (List.perm_ext_iff_of_nodup distinct (List.nodup_dedup _)).mpr fun slot => ?_
  simp only [slotsOf, List.mem_flatMap, List.mem_map, mem_hashes]
  constructor
  · rintro ⟨source, _, hash, hs, rfl⟩
    exact hs
  · intro hs
    exact ⟨slot.1, mem_sources_of_mem_slots hs, slot.2, hs, rfl⟩

theorem seriesCount_table (ledger : Ledger) : ledger.table.seriesCount = ledger.slots.length := by
  rw [← ledger.slotsOf_sources_perm.length_eq, table_eq, ShardTable.seriesCount, slotsOf,
    List.length_flatMap, List.sum_eq_foldl, List.foldl_map]
  simp only [SortedMap.values, SortedMap.tabulate, SortedMap.size, List.map_map, List.foldl_map,
    List.length_map, Function.comp_def, shelves, sources, hashes]

-----------------------------------------------------------------------------------------
-- One series and one source
-----------------------------------------------------------------------------------------

/-- A fragment of a slot is not empty: its start is that of a shard, which had records. -/
theorem recordsAt_ne_nil {ledger : Ledger} {slot : String × UInt64} {start : Timestamp}
    (h : start ∈ ledger.starts slot)
    : ledger.recordsAt slot start ≠ [] := by
  obtain ⟨last, hl⟩ := mem_starts_iff.mp h
  rw [recordsAt_of_last hl]
  exact last.records_ne_nil

/-- The samples of a slot are its fragments, joined by commas in ascending order of their starts. -/
theorem text_samples (ledger : Ledger) (slot : String × UInt64)
    : (ledger.samples slot).text
      = "\x7b" ++ String.intercalate ","
          ((ledger.fragments slot).map fun fragment => ShardTable.fragment fragment.2)
        ++ "\x7d" := by
  have filled : ∀ fragment ∈ ledger.fragments slot, fragment.2 ≠ [] := by
    intro fragment member
    obtain ⟨start, hs, rfl⟩ := List.mem_map.mp member
    exact recordsAt_ne_nil hs
  simp only [samples, Json.text, memberTexts_eq_map, List.map_flatMap]
  congr 2
  refine (intercalate_flatMap _ _ fun fragment member => ?_).trans ?_
  · simpa using filled fragment member
  · simp only [ShardTable.fragment, memberTexts_eq_map]

/-- The merged shelf of a slot is written as its samples. -/
theorem merged_shelf (ledger : Ledger) (slot : String × UInt64)
    : "\x7b" ++ (ledger.shelf slot).merged ++ "\x7d" = (ledger.samples slot).text := by
  simp only [text_samples, Shelf.merged, shelf, SortedMap.values, SortedMap.tabulate,
    List.map_map, Function.comp_def, fragments, starts]

theorem spells_seriesTokens (ledger : Ledger) (slot : String × UInt64) (id : SeriesName)
    : Spells (ShardTable.seriesTokens id (ledger.shelf slot))
        (ledger.seriesEntry slot id).text := by
  have spelled := ShardTable.spells_seriesTokens_shelf id (ledger.shelf slot)
  rw [merged_shelf] at spelled
  simpa only [seriesEntry, Json.text, memberTexts_eq_map, List.map_append, List.map_cons,
    List.map_nil] using spelled

/-- Every slot of a source is on a shelf that holds something. -/
theorem identified_shelves (ledger : Ledger) (registry : Registry) (source : String)
    : ShardTable.identified registry (ledger.shelves source)
      = (ledger.hashes source).map fun hash =>
          (ledger.shelf (source, hash), ledger.identity? registry (source, hash)) := by
  have values : (ledger.shelves source).values
      = (ledger.hashes source).map fun hash => ledger.shelf (source, hash) := by
    simp only [SortedMap.values, shelves, SortedMap.tabulate, hashes, List.map_map,
      Function.comp_def]
  have held : ∀ hash ∈ ledger.hashes source, !(ledger.shelf (source, hash)).isEmpty := by
    intro hash member
    obtain ⟨filing, hf, hs⟩ := mem_slots.mp (mem_hashes.mp member)
    have start : filing.start ∈ ledger.starts (source, hash) := by
      refine mem_inOrder.mpr (List.mem_map.mpr ⟨filing, ?_, rfl⟩)
      simp [ofSlot, hf, hs]
    simpa [Shelf.isEmpty, shelf, SortedMap.isEmpty, SortedMap.tabulate, starts]
      using List.ne_nil_of_mem start
  rw [ShardTable.identified, values, List.filter_eq_self.mpr, List.map_map]
  · rfl
  · intro shelf member
    obtain ⟨hash, hm, rfl⟩ := List.mem_map.mp member
    exact held hash hm

/-- The shelves of a source that have an identity, as a flush finds them. -/
theorem found_shelves (ledger : Ledger) (registry : Registry) (source : String)
    : ShardTable.found registry (ledger.shelves source)
      = (ledger.resolved registry source).map fun (hash, id) =>
          (id, ledger.shelf (source, hash)) := by
  rw [ShardTable.found, identified_shelves, List.filterMap_map, resolved, List.map_filterMap]
  simp only [Function.comp_def, Option.map_map]

/-- A source is written as its result if one of its slots has an identity, and not at all if none
has.
-/
theorem lists_sourceTokens (ledger : Ledger) (registry : Registry) (source : String)
    : Lists (ShardTable.sourceTokens source (ShardTable.found registry (ledger.shelves source)))
        ((ledger.entriesOf registry [source]).map fun entry => entry.toJson.text) := by
  rw [found_shelves, ShardTable.sourceTokens, entriesOf]
  cases h : ledger.resolved registry source with
  | nil =>
      have silent : (ledger.sourceEntry registry source).series = [] := by simp [sourceEntry, h]
      simpa [silent] using Lists.nil
  | cons first rest =>
      have shown : (ledger.sourceEntry registry source).series ≠ [] := by simp [sourceEntry, h]
      have data : Lists
          ((ledger.resolved registry source).flatMap fun (hash, id) =>
            ShardTable.seriesTokens id (ledger.shelf (source, hash)))
          (itemTexts (ledger.sourceEntry registry source).series.flatten) := by
        rw [itemTexts_eq_map, sourceEntry, ← List.flatMap_def, List.map_flatMap]
        exact Lists.flatMap fun entry _ =>
          (ledger.spells_seriesTokens (source, entry.1) entry.2).lists
      have spelled := ((ledger.sourceEntry registry source).spells_tokensAround data).lists
      simpa [SourceEntry.tokensAround, SourceEntry.heading, SourceEntry.ending, sourceEntry, h,
        shown, memberTokens, tokens, Json.string, Token.string, List.flatMap_map] using spelled

end Ledger

-----------------------------------------------------------------------------------------
-- The whole flush
-----------------------------------------------------------------------------------------

/-- Writing two lists of tokens is writing the second where the first has ended. -/
theorem Json.Writer.writeAll_append (writer : Writer) (first second : List Token)
    : writer.writeAll (first ++ second)
      = match writer.writeAll first with
        | (next, .ok ()) => next.writeAll second
        | (next, .error fault) => (next, .error fault) := by
  induction first generalizing writer with
  | nil => rfl
  | cons token rest ih =>
      simp only [List.cons_append, writeAll]
      rcases writer.write token with ⟨next, fault | ⟨⟩⟩
      · rfl
      · exact ih next

namespace ShardTable

/-- What a flush adds to its count for the shelves of one source. -/
def tally (registry : Registry) (count : FlushCount) (shelves : SortedMap UInt64 Shelf)
    : FlushCount :=
  ⟨count.series + (found registry shelves).length,
    count.unresolved + ((identified registry shelves).length - (found registry shelves).length)⟩

/-- A flush that nothing interrupts writes the tokens of all sources, takes all of them and counts
all of them, by induction on the sources.
-/
theorem flushSources_of_writeAll {registry : Registry}
    {sources : List (String × SortedMap UInt64 Shelf)} {writer last : Writer} (taken : Nat)
    (count : FlushCount)
    (h : writer.writeAll (sources.flatMap fun (source, shelves) =>
        sourceTokens source (found registry shelves)) = (last, .ok ()))
    : flushSources registry sources writer taken count
      = (taken + sources.length, last,
          .ok ((sources.map Prod.snd).foldl (tally registry) count)) := by
  induction sources generalizing writer taken count with
  | nil =>
      have same : writer = last := by simpa [Writer.writeAll] using h
      rw [same]
      rfl
  | cons head rest ih =>
      rw [List.flatMap_cons, Writer.writeAll_append] at h
      simp only at h
      rw [flushSources]
      change (match writer.writeAll (sourceTokens head.1 (found registry head.2)) with
        | (writer, .ok ()) =>
          flushSources registry rest writer (taken + 1) (tally registry count head.2)
        | (writer, .error fault) => (taken + 1, writer, .error fault)) = _
      rcases hw : writer.writeAll (sourceTokens head.1 (found registry head.2))
        with ⟨next, fault | ⟨⟩⟩
      · simp [hw] at h
      · rw [hw] at h
        simp only
        rw [ih (taken + 1) (tally registry count head.2) h]
        simp [Nat.add_assoc, Nat.add_comm 1]

end ShardTable

namespace Ledger

theorem length_resolved (ledger : Ledger) (registry : Registry) (source : String)
    : (ledger.resolved registry source).length
      = (ledger.slotsOf [source]).countP fun slot =>
          (ledger.identity? registry slot).isSome := by
  rw [resolved, List.length_filterMap_eq_countP]
  simp [slotsOf, List.countP_map, Function.comp_def]

/-- Every slot has an identity or none. -/
theorem countP_identity (ledger : Ledger) (registry : Registry) (slots : List (String × UInt64))
    : slots.countP (fun slot => (ledger.identity? registry slot).isSome)
        + slots.countP (fun slot => (ledger.identity? registry slot).isNone)
      = slots.length := by
  rw [slots.length_eq_countP_add_countP fun slot => (ledger.identity? registry slot).isSome]
  congr 1
  refine List.countP_congr fun slot _ => ?_
  simp

theorem tally_shelves (ledger : Ledger) (registry : Registry) (source : String)
    (count : FlushCount)
    : ShardTable.tally registry count (ledger.shelves source)
      = ⟨count.series + (ledger.slotsOf [source]).countP fun slot =>
            (ledger.identity? registry slot).isSome,
          count.unresolved + (ledger.slotsOf [source]).countP fun slot =>
            (ledger.identity? registry slot).isNone⟩ := by
  have found : (ShardTable.found registry (ledger.shelves source)).length
      = (ledger.slotsOf [source]).countP fun slot =>
          (ledger.identity? registry slot).isSome := by
    rw [found_shelves, List.length_map, length_resolved]
  have shown : (ShardTable.identified registry (ledger.shelves source)).length
      = (ledger.slotsOf [source]).length := by
    rw [identified_shelves]
    simp [slotsOf]
  have parts := ledger.countP_identity registry (ledger.slotsOf [source])
  rw [ShardTable.tally, found, shown]
  congr 2
  omega

/-- The slots of all sources are counted, by induction on the sources. -/
theorem foldl_tally (ledger : Ledger) (registry : Registry) (sources : List String)
    (count : FlushCount)
    : (sources.map ledger.shelves).foldl (ShardTable.tally registry) count
      = ⟨count.series + (ledger.slotsOf sources).countP fun slot =>
            (ledger.identity? registry slot).isSome,
          count.unresolved + (ledger.slotsOf sources).countP fun slot =>
            (ledger.identity? registry slot).isNone⟩ := by
  induction sources generalizing count with
  | nil => rfl
  | cons source rest ih =>
      rw [List.map_cons, List.foldl_cons, ih, tally_shelves]
      simp [slotsOf, Nat.add_assoc]

/-- The results are those of one source after the other, by induction on the sources. -/
theorem entriesOf_eq_flatMap (ledger : Ledger) (registry : Registry) (sources : List String)
    : ledger.entriesOf registry sources
      = sources.flatMap fun source => ledger.entriesOf registry [source] := by
  induction sources with
  | nil => rfl
  | cons source rest ih =>
      rw [List.flatMap_cons, ← ih]
      simp only [entriesOf, List.map_cons, List.map_nil, ← List.filter_append, List.cons_append,
        List.nil_append]

/-- A flush of the shards of a ledger into an array writes the results of its sources, empties the
table, and counts every slot once: with those that have an identity or with those that have none.
-/
theorem flush_table (ledger : Ledger) (registry : Registry) {stream : Stream}
    (unlimited : stream.room = none) (count : Nat) (outer : List Scope)
    : ∃ next,
        (next = 0 ↔ count = 0 ∧ ledger.entries registry = [])
        ∧ ledger.table.flush registry ⟨stream, ⟨⟨.array, count⟩ :: outer, false⟩⟩
          = (.empty,
              ⟨stream.extend (separated count
                  ((ledger.entries registry).map fun entry => entry.toJson.text)),
                ⟨⟨.array, next⟩ :: outer, false⟩⟩,
              .ok ⟨ledger.slots.countP fun slot => (ledger.identity? registry slot).isSome,
                ledger.slots.countP fun slot => (ledger.identity? registry slot).isNone⟩) := by
  have listed : Lists
      (ledger.sources.flatMap fun source =>
        ShardTable.sourceTokens source (ShardTable.found registry (ledger.shelves source)))
      (ledger.sources.flatMap fun source =>
        (ledger.entriesOf registry [source]).map fun entry => entry.toJson.text) :=
    Lists.flatMap fun source _ => ledger.lists_sourceTokens registry source
  rw [← List.map_flatMap, ← entriesOf_eq_flatMap] at listed
  obtain ⟨next, hn, hw⟩ := listed outer count
  refine ⟨next, by simpa [entries] using hn, ?_⟩
  have sources : ledger.table.sources.entries
      = ledger.sources.map fun source => (source, ledger.shelves source) := by
    simp only [table_eq, SortedMap.tabulate, sources]
  have written : (Writer.mk stream ⟨⟨.array, count⟩ :: outer, false⟩).writeAll
        (ledger.table.sources.entries.flatMap fun (source, shelves) =>
          ShardTable.sourceTokens source (ShardTable.found registry shelves))
      = (⟨stream.extend (separated count
            ((ledger.entries registry).map fun entry => entry.toJson.text)),
          ⟨⟨.array, next⟩ :: outer, false⟩⟩, .ok ()) := by
    rw [sources, List.flatMap_map]
    exact hw.writeAll unlimited
  have emptied : ledger.table.sources.drop ledger.table.sources.entries.length = .empty := by
    simp [SortedMap.drop, SortedMap.empty]
  have counted : (ledger.table.sources.entries.map Prod.snd).foldl
        (ShardTable.tally registry) ⟨0, 0⟩
      = ⟨ledger.slots.countP fun slot => (ledger.identity? registry slot).isSome,
          ledger.slots.countP fun slot => (ledger.identity? registry slot).isNone⟩ := by
    have perm := ledger.slotsOf_sources_perm
    rw [sources, List.map_map, ← perm.countP_eq, ← perm.countP_eq]
    simpa [Function.comp_def] using ledger.foldl_tally registry ledger.sources ⟨0, 0⟩
  rw [ShardTable.flush, ShardTable.flushSources_of_writeAll 0 ⟨0, 0⟩ written, counted]
  simp only [Nat.zero_add, emptied, ShardTable.empty]

/-- The results of sources show one series for each slot that has an identity, by induction on the
sources.
-/
theorem shown_entriesOf (ledger : Ledger) (registry : Registry) (sources : List String)
    : ((ledger.entriesOf registry sources).map SourceEntry.shown).sum
      = (ledger.slotsOf sources).countP fun slot => (ledger.identity? registry slot).isSome := by
  have single (source : String)
      : ((ledger.entriesOf registry [source]).map SourceEntry.shown).sum
        = (ledger.slotsOf [source]).countP fun slot =>
            (ledger.identity? registry slot).isSome := by
    rw [← length_resolved]
    cases h : ledger.resolved registry source with
    | nil => simp [entriesOf, sourceEntry, h]
    | cons first rest => simp [entriesOf, sourceEntry, h, SourceEntry.shown, List.countP_map]
  induction sources with
  | nil => rfl
  | cons source rest ih =>
      rw [entriesOf_eq_flatMap, List.flatMap_cons, ← entriesOf_eq_flatMap, List.map_append,
        List.sum_append, ih, single]
      simp [slotsOf]

/-- The results of a flush show one series for each slot that has an identity. -/
theorem shown_entries (ledger : Ledger) (registry : Registry)
    : ((ledger.entries registry).map SourceEntry.shown).sum
      = ledger.slots.countP fun slot => (ledger.identity? registry slot).isSome := by
  rw [entries, shown_entriesOf, ledger.slotsOf_sources_perm.countP_eq]

end Ledger

end SeriesWire
