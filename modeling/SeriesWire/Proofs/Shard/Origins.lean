import SeriesWire.Proofs.Shard.Accounting

/-! Which shards a flushed series is made of.
The table tells series apart by the text of their source and by their hash. So a series holds shards
of one source text and one hash only, under the identity of the first of them; node and data source
can be read off the text if the node has no colon in it, and the form of the identity is not looked
at.
-/

namespace SeriesWire

open Json

-----------------------------------------------------------------------------------------
-- Sources
-----------------------------------------------------------------------------------------

/-- Where no node has a colon in it, the text of a source determines its node and its data source.
Witness: both nodes are the text up to its first colon.
-/
theorem ShardSet.eq_of_source_eq {a b : ShardSet} (ha : ':' ∉ a.node.toList)
    (hb : ':' ∉ b.node.toList) (same : a.source = b.source)
    : a.node = b.node ∧ a.dataSource = b.dataSource := by
  have front {set : ShardSet} (h : ':' ∉ set.node.toList)
      : set.source.toList.takeWhile (· ≠ ':') = set.node.toList := by
    have plain : ∀ c ∈ set.node.toList, decide (c ≠ ':') = true := by
      intro c member
      exact decide_eq_true fun colon => h (colon ▸ member)
    rw [source, String.toList_append, String.toList_append, List.append_assoc,
      List.takeWhile_append_of_pos plain]
    simp
  have node : a.node = b.node := by
    rw [← String.toList_inj, ← front ha, ← front hb, same]
  have parts := same
  simp only [source, node] at parts
  exact ⟨node, String.append_right_inj _ |>.mp parts⟩

-----------------------------------------------------------------------------------------
-- Contributions
-----------------------------------------------------------------------------------------

namespace Ledger

/-- The shards whose records a slot holds: for every start the last shard that has it. -/
def contributors (ledger : Ledger) (slot : String × UInt64) : Ledger :=
  (ledger.starts slot).filterMap fun start => (ledger.ofStart slot start).getLast?

/-- A slot takes records from its own shards only. -/
theorem of_mem_contributors {ledger : Ledger} {slot : String × UInt64} {filing : Filing}
    (member : filing ∈ ledger.contributors slot)
    : filing ∈ ledger ∧ filing.slot = slot := by
  obtain ⟨start, _, last⟩ := List.mem_filterMap.mp member
  have found := List.mem_filter.mp (List.mem_of_getLast? last)
  have inSlot := List.mem_filter.mp found.1
  exact ⟨inSlot.1, by simpa using inSlot.2⟩

/-- The samples of a slot are the records of its contributors, one shard after the other. -/
theorem samples_eq_contributors (ledger : Ledger) (slot : String × UInt64)
    : ledger.samples slot
      = .object ((ledger.contributors slot).flatMap fun filing =>
          filing.records.map ShardTable.recordMember) := by
  have parts {starts : List Timestamp} (known : ∀ start ∈ starts, start ∈ ledger.starts slot)
      : (starts.map fun start => (start, ledger.recordsAt slot start)).flatMap
            (fun fragment => fragment.2.map ShardTable.recordMember)
        = (starts.filterMap fun start => (ledger.ofStart slot start).getLast?).flatMap
            fun filing => filing.records.map ShardTable.recordMember := by
    induction starts with
    | nil => rfl
    | cons start rest ih =>
        obtain ⟨last, h⟩ := mem_starts_iff.mp (known start (by simp))
        have later := ih fun other member => known other (by simp [member])
        rw [List.map_cons, List.flatMap_cons, later, List.filterMap_cons, h, List.flatMap_cons,
          recordsAt_of_last h]
  rw [samples, fragments, parts fun start member => member, contributors]

/-- A result shows the slots of its source that have an identity, each with its contributors. -/
theorem toJson_of_mem_entries {ledger : Ledger} {registry : Registry} {entry : SourceEntry}
    (member : entry ∈ ledger.entries registry)
    : entry.toJson
      = .object [
          ("source", .string entry.source),
          ("data", .array ((ledger.resolved registry entry.source).map fun (hash, id) =>
            .object (id.members true
              ++ [("NumericType",
                .object ((ledger.contributors (entry.source, hash)).flatMap fun filing =>
                  filing.records.map ShardTable.recordMember))])))] := by
  rw [entries_eq_filter] at member
  obtain ⟨source, _, rfl⟩ := List.mem_map.mp member
  rw [(ledger.layout registry).objects]
  simp only [seriesEntry, samples_eq_contributors]
  rfl

end Ledger

/-- A flushed series and the shards it is made of. Every result shows its source and, for each hash
that has an identity, the records of certain accepted shards. All of them have the text of this
source and this hash. They agree with the first shard that was filed there on the node and the data
source, unless a node has a colon in it; and the identity that is shown, which is that of the first
shard's key, is the one that the registry holds for each of them, unless the form of its identity is
another than the first shard's.
-/
theorem ShardTable.flush_origins (offers : List Offer) (registry : Registry) {stream : Stream}
    (unlimited : stream.room = none) (count : Nat) (outer : List Scope)
    : ∃ ledger : Ledger, ∃ table next counted,
        ledger = .of offers
        ∧ empty.ingestAll offers = (table, offers.map Offer.outcome)
        ∧ table.flush registry ⟨stream, ⟨⟨.array, count⟩ :: outer, false⟩⟩
          = (.empty,
              ⟨stream.extend (separated count
                  ((ledger.entries registry).map fun entry => entry.toJson.text)),
                ⟨⟨.array, next⟩ :: outer, false⟩⟩,
              .ok counted)
        ∧ (∀ entry ∈ ledger.entries registry,
            entry.toJson
            = .object [
                ("source", .string entry.source),
                ("data", .array ((ledger.resolved registry entry.source).map fun (hash, id) =>
                  .object (id.members true
                    ++ [("NumericType",
                      .object ((ledger.contributors (entry.source, hash)).flatMap fun filing =>
                        filing.records.map recordMember))])))])
        ∧ ∀ source hash id,
            (hash, id) ∈ ledger.resolved registry source
            → ∃ first rest,
                ledger.ofSlot (source, hash) = first :: rest
                ∧ registry.get? first.key = some id
                ∧ ∀ filing ∈ ledger.contributors (source, hash),
                    filing.offer ∈ offers
                    ∧ filing.offer.outcome = .ok .accepted
                    ∧ filing.source = source
                    ∧ filing.key.hash = hash
                    ∧ (':' ∉ filing.offer.shard.set.node.toList
                        → ':' ∉ first.offer.shard.set.node.toList
                        → filing.offer.shard.set.node = first.offer.shard.set.node
                          ∧ filing.offer.shard.set.dataSource = first.offer.shard.set.dataSource)
                    ∧ (filing.key.form = first.key.form → registry.get? filing.key = some id) := by
  obtain ⟨next, _, flushed⟩ := (Ledger.of offers).flush_table registry unlimited count outer
  refine ⟨_, _, next, _, rfl, ingestAll_eq [] offers, flushed,
    fun entry member => Ledger.toJson_of_mem_entries member, ?_⟩
  intro source hash id shown
  obtain ⟨first, rest, slot, known⟩ := (Ledger.mem_resolved _ registry).mp shown
  refine ⟨first, rest, slot, known, fun filing member => ?_⟩
  obtain ⟨filed, same⟩ := Ledger.of_mem_contributors member
  obtain ⟨sourceEq, hashEq⟩ := Prod.mk.inj same
  have firstSlot : first.slot = (source, hash) := by
    have present : first ∈ (Ledger.of offers).ofSlot (source, hash) := by simp [slot]
    simpa using (List.mem_filter.mp present).2
  obtain ⟨firstSource, firstHash⟩ := Prod.mk.inj firstSlot
  refine ⟨Ledger.mem_of.mp filed, filing.accepted, sourceEq, hashEq, fun plain firstPlain => ?_,
    fun form => ?_⟩
  · exact ShardSet.eq_of_source_eq plain firstPlain (sourceEq.trans firstSource.symm)
  · have key : filing.key = first.key :=
      congrArg₂ HashKey.mk (hashEq.trans firstHash.symm) form
    rw [key, known]

/-- Two shards of one series, of which the later one comes first: both are shown, under the identity
that the registry holds for either.
-/
theorem ShardTable.flush_origins_pair
    : Stream.unlimited.room = none
      ∧ ∃ ledger : Ledger, ∃ table next counted,
          ledger = .of [.single 7 40 (.int 6), .single 7 30 (.int 5)]
          ∧ empty.ingestAll [.single 7 40 (.int 6), .single 7 30 (.int 5)]
            = (table, [.ok .accepted, .ok .accepted])
          ∧ table.flush (Registry.empty.registerAs ⟨7, .string⟩ (.ofMetric "cpu"))
              ⟨.unlimited, .insideArray⟩
            = (.empty, next, .ok counted)
          ∧ next.stream.accepted
            = ("\x7b\"source\":\"m1:sys\",\"data\":[\x7b\"metric\":\"cpu\",\"tags\":\x7b\x7d,"
                ++ "\"aggregateTags\":[],\"NumericType\":\x7b\"30\":5,\"40\":6\x7d\x7d]\x7d").toUTF8
          ∧ ∀ filing ∈ ledger.contributors ("m1:sys", 7),
              filing.source = "m1:sys" ∧ filing.key.hash = 7 := by
  obtain ⟨_, table, next, counted, rfl, taken, flushed, _, origins⟩ := flush_origins
    [.single 7 40 (.int 6), .single 7 30 (.int 5)]
    (Registry.empty.registerAs ⟨7, .string⟩ (.ofMetric "cpu")) (rfl : Stream.unlimited.room = none)
    0 []
  obtain ⟨_, _, _, _, same⟩ := origins "m1:sys" 7 (.ofMetric "cpu") (by decide +kernel)
  have made : (empty.ingestAll [.single 7 40 (.int 6), .single 7 30 (.int 5)]).1 = table :=
    congrArg Prod.fst taken
  have written := congrArg (fun flushed => flushed.2.1.stream.accepted) flushed
  rw [← made] at written
  refine ⟨rfl, _, table, _, counted, rfl, taken.trans (congrArg _ ?_), flushed, ?_,
    fun filing member => ?_⟩
  · decide +kernel
  · exact written.symm.trans (Stream.eq_of_toList_eq (by decide +kernel))
  · obtain ⟨_, _, source, hash, _⟩ := same filing member
    exact ⟨source, hash⟩

/-- A shard like another one whose identity has the other form. -/
def Offer.encoded (offer : Offer) : Offer :=
  { offer with shard := { offer.shard with key := { offer.shard.key with form := .byte } } }

/-- A shard like another one that comes from the given node and data source. -/
def Offer.from (offer : Offer) (node dataSource : String) : Offer :=
  { offer with shard := { offer.shard with set := { offer.shard.set with node, dataSource } } }

/-- Shards of different series do come together. Two that differ in the form of their identity,
where the registry knows both: the records of both are shown under the identity of the one that came
first. And two that differ in node and data source, which are the same text when they are put
together.
-/
theorem ShardTable.flush_merges_series
    : ∃ table other joined next,
        empty.ingestAll [.single 7 30 (.int 5), (Offer.single 7 40 (.int 6)).encoded]
          = (table, [.ok .accepted, .ok .accepted])
        ∧ (table.flush ((Registry.empty.registerAs ⟨7, .string⟩ (.ofMetric "cpu")).registerAs
              ⟨7, .byte⟩ (.ofMetric "mem")) ⟨.unlimited, .insideArray⟩).2.1.stream.accepted
          = ("\x7b\"source\":\"m1:sys\",\"data\":[\x7b\"metric\":\"cpu\",\"tags\":\x7b\x7d,"
              ++ "\"aggregateTags\":[],\"NumericType\":\x7b\"30\":5,\"40\":6\x7d\x7d]\x7d").toUTF8
        ∧ empty.ingestAll [(Offer.single 7 40 (.int 6)).encoded, .single 7 30 (.int 5)]
          = (other, [.ok .accepted, .ok .accepted])
        ∧ (other.flush ((Registry.empty.registerAs ⟨7, .string⟩ (.ofMetric "cpu")).registerAs
              ⟨7, .byte⟩ (.ofMetric "mem")) ⟨.unlimited, .insideArray⟩).2.1.stream.accepted
          = ("\x7b\"source\":\"m1:sys\",\"data\":[\x7b\"metric\":\"mem\",\"tags\":\x7b\x7d,"
              ++ "\"aggregateTags\":[],\"NumericType\":\x7b\"30\":5,\"40\":6\x7d\x7d]\x7d").toUTF8
        ∧ empty.ingestAll
            [(Offer.single 7 30 (.int 5)).from "a:b" "c",
              (Offer.single 7 40 (.int 6)).from "a" "b:c"]
          = (joined, [.ok .accepted, .ok .accepted])
        ∧ joined.flush (Registry.empty.registerAs ⟨7, .string⟩ (.ofMetric "cpu"))
            ⟨.unlimited, .insideArray⟩
          = (.empty, next, .ok ⟨1, 0⟩) := by
  refine ⟨_, _, _, _, Prod.ext rfl ?_, Stream.eq_of_toList_eq ?_, Prod.ext rfl ?_,
    Stream.eq_of_toList_eq ?_, Prod.ext rfl ?_, Prod.ext ?_ (Prod.ext rfl ?_)⟩
  all_goals decide +kernel

end SeriesWire
