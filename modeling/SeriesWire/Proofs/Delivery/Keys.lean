import SeriesWire.Proofs.Delivery.Completion
import SeriesWire.Proofs.Instant.Milliseconds
import SeriesWire.Proofs.Series.NumericKeys
import SeriesWire.Proofs.Shard.Origins
import SeriesWire.Proofs.Shard.WholeSeconds

/-! The keys of the plain numbers in a completed document.
Whole results have the keys that the options ask for. Shards are rendered when they are filed,
without the options, so theirs are always seconds.
-/

namespace SeriesWire

open Packed

-----------------------------------------------------------------------------------------
-- Whole results
-----------------------------------------------------------------------------------------

namespace QueryResult

/-- The times of the plain numbers that a result shows. -/
def namedTimes (result : QueryResult) (query : Query) (options : Options) : List Timestamp :=
  result.series.flatMap fun series =>
    series.strands.flatMap
      (Strand.namedTimes (.ofResult result query.start query.stop options))

/-- A result whose identities resolve has the keys of its times. -/
theorem resultKeys_entryFor {result : QueryResult} {query : Query} {ids : List SeriesName}
    (known : result.ids query = .ok ids) (options : Options)
    : (result.entryFor query options).toJson.resultKeys
      = (result.namedTimes query options).map options.key := by
  have paired : (ids.zip result.series).map Prod.snd = result.series :=
    List.map_snd_zip (Nat.le_of_eq (length_of_resolve_ok known).symm)
  have entries : (result.entryFor query options).series
      = (ids.zip result.series).map fun pair =>
          (EntryContext.ofResult result query.start query.stop options).entries pair.1
            pair.2.strands := by
    simp [entryFor, known, Except.toOption, entry]
  rw [SourceEntry.resultKeys_toJson, entries, ← List.flatMap_def, List.flatMap_assoc, namedTimes]
  conv => rhs; rw [← paired]
  simp only [EntryContext.numericKeys_entries, EntryContext.key_eq]
  rw [List.flatMap_map, List.map_flatMap]
  rfl

end QueryResult

-----------------------------------------------------------------------------------------
-- Shards
-----------------------------------------------------------------------------------------

/-- Times are counted in whole seconds whatever else is asked for. -/
def Options.inSeconds (options : Options) : Options :=
  { options with millis := false }

/-- The keys in seconds are those that the options ask for if these are seconds, or if the time
happens to be the same in both units.
-/
theorem Options.key_inSeconds_iff {options : Options} {time : Timestamp}
    : options.inSeconds.key time = options.key time
      ↔ options.millis = false ∨ time.millis = time.epoch := by
  have seconds : options.inSeconds.key time = time.epoch.toInt.repr := rfl
  rw [seconds, Options.key]
  cases options.millis with
  | false => exact iff_of_true rfl (.inl rfl)
  | true =>
      have millis : s!"{time.millis}" = time.millis.toInt.repr := rfl
      rw [if_pos rfl, millis, Int.repr_inj, Int64.toInt_inj]
      simp [eq_comm]

/-- Of all times that a header can tell, only the epoch is the same in both units. -/
theorem Packed.millis_stamp_eq_iff (header : Int64)
    : (stamp header).millis = (stamp header).epoch ↔ stamp header = .ofEpoch 0 := by
  obtain ⟨normal, exactly⟩ := stamp_eq header
  have masked : (header.toUInt64 &&& timeMask).toNat < 1152921504606846976 := by
    rw [UInt64.toNat_and]
    exact Nat.lt_of_le_of_lt Nat.and_le_right (by decide)
  have counted := Timestamp.toInt_millis normal
  have least := Int64.toInt_minValue
  have greatest := Int64.toInt_maxValue
  generalize stamp header = time at *
  generalize (header.toUInt64 &&& timeMask).toNat = count at *
  obtain ⟨epoch, nanos⟩ := time
  obtain ⟨positive, below⟩ := normal
  simp only [Timestamp.instant] at exactly positive below counted
  rw [← Int64.toInt_inj, counted, Timestamp.ofEpoch, Timestamp.mk.injEq, ← Int64.toInt_inj,
    ← Int64.toInt_inj, Int64.toInt_zero]
  dsimp only
  split at exactly <;> omega

/-- A shard of which something is read carries the words. -/
theorem Offer.exists_payload {offer : Offer} {found : List Record}
    (read : offer.window = .ok found) (filled : found ≠ [])
    : ∃ array,
        offer.shard.payload = some array
        ∧ found
          = windowed offer.start.epoch.toInt offer.stop.epoch.toInt
              (Packed.records array.slice) := by
  unfold window at read
  split at read
  · exact absurd (Except.ok.inj read).symm filled
  · exact absurd (Except.ok.inj read).symm filled
  · rename_i array carried _
    exact ⟨array, carried, PackedArray.eq_windowed_of_collect read⟩

namespace Filing

/-- The exact times of what an accepted shard shows. -/
def times (filing : Filing) : List Timestamp :=
  match filing.offer.shard.payload with
  | none => []
  | some array =>
    (((stamped array.slice).takeWhile fun record =>
        !ends filing.offer.start.epoch.toInt filing.offer.stop.epoch.toInt record.record).filter
      fun record => filing.offer.start.epoch.toInt ≤ record.record.seconds).map Stamped.time

/-- An accepted shard carries words, and shows what the window reads of them. -/
theorem exists_payload (filing : Filing)
    : ∃ array,
        filing.offer.shard.payload = some array
        ∧ filing.records
          = windowed filing.offer.start.epoch.toInt filing.offer.stop.epoch.toInt
              (Packed.records array.slice) := by
  have filled : filing.offer.window.toOption.getD [] ≠ [] := filing.records_ne_nil
  rw [records, Offer.records]
  cases read : filing.offer.window with
  | error cause =>
      rw [read] at filled
      exact absurd rfl filled
  | ok found =>
      rw [read] at filled
      exact Offer.exists_payload read filled

/-- The members that an accepted shard adds have the keys of its times in seconds. -/
theorem keys_records (filing : Filing) (options : Options)
    : (filing.records.map ShardTable.recordMember).map Prod.fst
      = filing.times.map options.inSeconds.key := by
  obtain ⟨array, carried, shown⟩ := filing.exists_payload
  rw [shown, times, carried, windowed, ← records_stamped, List.takeWhile_map, List.filter_map,
    List.map_map, List.map_map, List.map_map]
  apply List.map_congr_left
  intro record found
  have member : record ∈ stamped array.slice :=
    List.takeWhile_subset _ (List.mem_filter.mp found).1
  have epoch := epoch_of_mem_stamped member
  have seconds : options.inSeconds.key record.time = record.time.epoch.toInt.repr := rfl
  simp only [Function.comp_apply, seconds, epoch]
  rfl

/-- The times of a shard are told by headers. -/
theorem exists_stamp {filing : Filing} {time : Timestamp} (member : time ∈ filing.times)
    : ∃ header, time = stamp header := by
  obtain ⟨array, carried, _⟩ := filing.exists_payload
  rw [times, carried] at member
  obtain ⟨record, listed, rfl⟩ := List.mem_map.mp member
  obtain ⟨header, payload, rfl⟩ :=
    exists_words_of_mem_stamped (List.takeWhile_subset _ (List.mem_filter.mp listed).1)
  exact ⟨header, rfl⟩

end Filing

namespace Ledger

/-- The times that the result of a source shows. -/
def times (ledger : Ledger) (registry : Registry) (source : String) : List Timestamp :=
  (ledger.resolved registry source).flatMap fun (hash, _) =>
    (ledger.contributors (source, hash)).flatMap Filing.times

/-- The sources that have a result. -/
def shownSources (ledger : Ledger) (registry : Registry) : List String :=
  ledger.sources.filter fun source => !(ledger.resolved registry source).isEmpty

/-- The result of a source has the keys of its times in seconds. -/
theorem resultKeys_sourceEntry (ledger : Ledger) (registry : Registry) (source : String)
    (options : Options)
    : (ledger.sourceEntry registry source).toJson.resultKeys
      = (ledger.times registry source).map options.inSeconds.key := by
  have entry (slot : String × UInt64) (id : SeriesName)
      : (ledger.seriesEntry slot id).numericKeys
        = ((ledger.contributors slot).flatMap Filing.times).map options.inSeconds.key := by
    rw [seriesEntry, id.numericKeys_entry, Members.valuesOf_singleton, List.flatMap_singleton,
      samples_eq_contributors, Json.names, List.map_flatMap, List.map_flatMap]
    simp only [Filing.keys_records _ options]
  rw [SourceEntry.resultKeys_toJson, flatten_series, List.flatMap_map, times, List.map_flatMap]
  simp only [entry]

theorem key_inSeconds_iff {ledger : Ledger} {registry : Registry} {source : String}
    {time : Timestamp} (member : time ∈ ledger.times registry source) (options : Options)
    : options.inSeconds.key time = options.key time
      ↔ options.millis = false ∨ time = .ofEpoch 0 := by
  obtain ⟨slot, _, found⟩ := List.mem_flatMap.mp member
  obtain ⟨filing, _, shown⟩ := List.mem_flatMap.mp found
  obtain ⟨header, rfl⟩ := filing.exists_stamp shown
  rw [Options.key_inSeconds_iff, millis_stamp_eq_iff]

end Ledger

-----------------------------------------------------------------------------------------
-- Sessions
-----------------------------------------------------------------------------------------

namespace Session

variable {session : Session} {query : Query} {options : Options} {stream : Stream}

/-- The document of a session that was given any results and shards, with any failures, and was then
completed. If whole results were written, the plain numbers of each have the keys of their times
that the options ask for. If shards were accepted, those of each source have the keys of their exact
times in whole seconds, whatever the options ask for; so a key is the one that the options ask for
only if they ask for seconds, or if the time is the epoch.
-/
theorem run_complete_keys (started : start query options stream = .ok session)
    (unlimited : stream.room = none) {requests : List Request} (more : .complete ∉ requests)
    : ∃ history : History, ∃ results : List Json,
        history = requests.zip (session.run requests).2
        ∧ ((session.run requests).1.step .complete).1.document.writer.stream
          = stream.extend (Document.text (results.map Json.text) (shownLogs query))
        ∧ (history.wholes = [] ∨ history.accepted = [])
        ∧ (history.accepted = []
          → results.map Json.resultKeys
            = history.wholes.map fun result => (result.namedTimes query options).map options.key)
        ∧ (history.wholes = []
          → results.map Json.resultKeys
            = ((history.ledger query).shownSources query.registry).map fun source =>
                ((history.ledger query).times query.registry source).map options.inSeconds.key)
        ∧ ∀ source, ∀ time ∈ (history.ledger query).times query.registry source,
            options.inSeconds.key time = options.key time
            ↔ options.millis = false ∨ time = .ofEpoch 0 := by
  have tracks := (Tracks.start started).run unlimited more
  rw [List.nil_append] at tracks
  generalize (requests.zip (session.run requests).2 : History) = history at tracks
  refine ⟨history, (History.entries history query options).map SourceEntry.toJson, rfl, ?_,
    tracks.exclusive, ?_, ?_, fun source time member => Ledger.key_inSeconds_iff member options⟩
  · rw [step, tracks.complete unlimited, List.map_map]
    rfl
  · intro unshared
    have ledger : History.ledger history query = [] := by
      rw [History.ledger, unshared]
      rfl
    have entries : History.entries history query options
        = (History.wholes history).map (QueryResult.entryFor query options) := by
      rw [History.entries, ledger, Ledger.entries_nil]
      split
      · rename_i unwhole
        rw [List.isEmpty_iff.mp unwhole]
        rfl
      · rfl
    rw [entries, List.map_map, List.map_map]
    apply List.map_congr_left
    intro result member
    obtain ⟨ids, known⟩ := tracks.resolved result member
    exact QueryResult.resultKeys_entryFor known options
  · intro unwhole
    rw [History.entries, unwhole, List.isEmpty_nil, if_pos rfl, Ledger.entries_eq_filter,
      List.map_map, List.map_map]
    apply List.map_congr_left
    intro source _
    exact Ledger.resultKeys_sourceEntry _ _ source options

end Session

/-- The result that a shard of one record would be if its source were delivered whole. -/
def QueryResult.oneValue (second : Int64) (number : Number) : QueryResult where
  node := "m1"
  dataSource := "sys"
  kind := .other
  grid := none
  rollup := none
  series := [⟨.named (.ofMetric "cpu"), [.numeric [⟨.ofEpoch second, some number⟩]]⟩]

namespace Session

/-- One value at thirty seconds under options that ask for milliseconds, delivered in both ways. -/
theorem run_complete_keys_millis
    : ∃ session, ∃ sharded whole : List Json,
        start .firstMinute ⟨true, 0, false⟩ .unlimited = .ok session
        ∧ Stream.unlimited.room = none
        ∧ (session.run [.shard (Offer.single 7 30 (.int 5)).shard]).2 = [.filed .accepted]
        ∧ (session.run [.whole (.oneValue 30 (.int 5))]).2 = [.done]
        ∧ sharded.map Json.resultKeys = [["30"]]
        ∧ whole.map Json.resultKeys = [["30000"]]
        ∧ ((session.run [.shard (Offer.single 7 30 (.int 5)).shard]).1.step
              .complete).1.document.writer.stream
          = Stream.unlimited.extend (Document.text (sharded.map Json.text) (some ["ready"]))
        ∧ ((session.run [.whole (.oneValue 30 (.int 5))]).1.step .complete).1.document.writer.stream
          = Stream.unlimited.extend (Document.text (whole.map Json.text) (some ["ready"])) := by
  have started : start .firstMinute ⟨true, 0, false⟩ .unlimited = .ok _ := rfl
  have filing : Request.complete ∉ [.shard (Offer.single 7 30 (.int 5)).shard] := by simp
  have writing : Request.complete ∉ [.whole (.oneValue 30 (.int 5))] := by simp
  obtain ⟨_, sharded, rfl, partwise, _, _, seconds, _⟩ := run_complete_keys started rfl filing
  obtain ⟨_, whole, rfl, entire, _, millis, _, _⟩ := run_complete_keys started rfl writing
  refine ⟨_, sharded, whole, rfl, rfl, by decide +kernel, by decide +kernel, ?_, ?_, partwise,
    entire⟩
  · exact (seconds rfl).trans (by decide +kernel)
  · exact (millis rfl).trans (by decide +kernel)

/-- Under options that ask for milliseconds, the document of a shard has the key of its value in
seconds.
-/
theorem document_shard_inSeconds
    : ∃ session,
        start .firstMinute ⟨true, 0, false⟩ .unlimited = .ok session
        ∧ (session.run [.shard (Offer.single 7 30 (.int 5)).shard, .complete]).2
          = [.filed .accepted, .done]
        ∧ (session.run [.shard (Offer.single 7 30 (.int 5)).shard,
              .complete]).1.document.writer.stream.accepted
          = ("\x7b\"results\":[\x7b\"source\":\"m1:sys\",\"data\":[\x7b\"metric\":\"cpu\","
              ++ "\"tags\":\x7b\x7d,\"aggregateTags\":[],"
              ++ "\"NumericType\":\x7b\"30\":5\x7d\x7d]\x7d],\"log\":[\"ready\"]\x7d").toUTF8
        ∧ (EntryContext.ofResult (.oneValue 30 (.int 5)) (.ofEpoch 0) (.ofEpoch 60)
              ⟨true, 0, false⟩).key (.ofEpoch 30)
          = "30000" := by
  refine ⟨_, rfl, ?_, ?_, ?_⟩
  · decide +kernel
  · exact Stream.eq_of_toList_eq (by decide +kernel)
  · decide +kernel

end Session

end SeriesWire
