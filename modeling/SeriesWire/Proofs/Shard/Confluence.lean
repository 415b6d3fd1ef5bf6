import SeriesWire.Proofs.Instant.Order
import SeriesWire.Proofs.Shard.Accounting

/-! Neither the order of shards nor their redelivery matters.
Where shards of one slot agree on the form of the identity, and shards of one slot and start agree
on the samples, a table depends only on which shards were accepted.
-/

namespace SeriesWire

open Json

namespace Ledger

/-- Shards of one slot carry one key, and shards of one slot and start carry one fragment. -/
structure Consistent (ledger : Ledger) : Prop where
  keys : ∀ a ∈ ledger, ∀ b ∈ ledger, a.slot = b.slot → a.key = b.key
  records : ∀ a ∈ ledger, ∀ b ∈ ledger, a.slot = b.slot → a.start = b.start → a.records = b.records

variable {ledger other : Ledger}

theorem mem_ofSlot {slot : String × UInt64} {filing : Filing}
    : filing ∈ ledger.ofSlot slot ↔ filing ∈ ledger ∧ filing.slot = slot := by
  simp [ofSlot]

theorem mem_ofStart {slot : String × UInt64} {start : Timestamp} {filing : Filing}
    : filing ∈ ledger.ofStart slot start
      ↔ filing ∈ ledger ∧ filing.slot = slot ∧ filing.start = start := by
  simp [ofStart, mem_ofSlot, and_assoc]

/-- Any shard of a slot has the key under which the slot is resolved. -/
theorem Consistent.key_eq (consistent : ledger.Consistent) {filing : Filing}
    (member : filing ∈ ledger)
    : ledger.key filing.slot = filing.key := by
  have present : filing ∈ ledger.ofSlot filing.slot := mem_ofSlot.mpr ⟨member, rfl⟩
  cases h : ledger.ofSlot filing.slot with
  | nil => simp [h] at present
  | cons first rest =>
      have known : first ∈ ledger ∧ first.slot = filing.slot :=
        mem_ofSlot.mp (h ▸ List.mem_cons_self ..)
      rw [key, h]
      exact consistent.keys first known.1 filing member known.2

/-- Any shard of a slot and a start has the fragment that is kept for them. -/
theorem Consistent.recordsAt_eq (consistent : ledger.Consistent) {filing : Filing}
    (member : filing ∈ ledger)
    : ledger.recordsAt filing.slot filing.start = filing.records := by
  have present : filing.start ∈ ledger.starts filing.slot :=
    mem_inOrder.mpr (List.mem_map.mpr ⟨filing, mem_ofSlot.mpr ⟨member, rfl⟩, rfl⟩)
  obtain ⟨last, h⟩ := mem_starts_iff.mp present
  obtain ⟨known, slot, start⟩ := mem_ofStart.mp (List.mem_of_getLast? h)
  rw [recordsAt_of_last h]
  exact consistent.records last known filing member slot start

/-- Agreement does not depend on the order of the shards or on how often they came. -/
theorem Consistent.congr (consistent : ledger.Consistent)
    (same : ∀ filing, filing ∈ ledger ↔ filing ∈ other)
    : other.Consistent where
  keys a ha b hb := consistent.keys a ((same a).mpr ha) b ((same b).mpr hb)
  records a ha b hb := consistent.records a ((same a).mpr ha) b ((same b).mpr hb)

theorem Consistent.shelf_congr (consistent : ledger.Consistent)
    (same : ∀ filing, filing ∈ ledger ↔ filing ∈ other) {slot : String × UInt64}
    (used : slot ∈ ledger.map Filing.slot)
    : ledger.shelf slot = other.shelf slot := by
  have agreed := consistent.congr same
  obtain ⟨filing, member, rfl⟩ := List.mem_map.mp used
  have key : ledger.key filing.slot = other.key filing.slot := by
    rw [consistent.key_eq member, agreed.key_eq ((same filing).mp member)]
  rw [shelf, shelf, key]
  congr 1
  refine SortedMap.tabulate_congr (fun start => ?_) fun start h => ?_
  · simp only [List.mem_map, mem_ofSlot, same]
  · obtain ⟨copy, hc, rfl⟩ := List.mem_map.mp h
    obtain ⟨known, slot⟩ := mem_ofSlot.mp hc
    rw [← slot, consistent.recordsAt_eq known, agreed.recordsAt_eq ((same copy).mp known)]

/-- The same shards make the same table, in whatever order and however often they came. -/
theorem Consistent.table_congr (consistent : ledger.Consistent)
    (same : ∀ filing, filing ∈ ledger ↔ filing ∈ other)
    : ledger.table = other.table := by
  rw [table_eq, table_eq]
  refine congrArg ShardTable.mk (SortedMap.tabulate_congr (fun source => ?_) fun source _ => ?_)
  · simp only [List.mem_map, same]
  · refine SortedMap.tabulate_congr (fun hash => ?_) fun hash h => ?_
    · simp only [List.mem_map, List.mem_filter, same]
    · exact consistent.shelf_congr same (mem_hashes_iff.mp h)

end Ledger

namespace Shard

/-- Shards of one source and hash have one form of identity. -/
def FormsAgree (shards : List Shard) : Prop :=
  ∀ a ∈ shards, ∀ b ∈ shards,
    a.set.source = b.set.source → a.key.hash = b.key.hash → a.key.form = b.key.form

/-- Shards of one source, hash and start carry the same samples. -/
def CopiesAgree (shards : List Shard) : Prop :=
  ∀ a ∈ shards, ∀ b ∈ shards,
    a.set.source = b.set.source → a.key.hash = b.key.hash → a.set.start = b.set.start
    → a.payload = b.payload ∧ a.set.seriesCount = b.set.seriesCount

instance (shards : List Shard) : Decidable (FormsAgree shards) :=
  inferInstanceAs (Decidable (∀ a ∈ shards, ∀ b ∈ shards,
    a.set.source = b.set.source → a.key.hash = b.key.hash → a.key.form = b.key.form))

instance (shards : List Shard) : Decidable (CopiesAgree shards) :=
  inferInstanceAs (Decidable (∀ a ∈ shards, ∀ b ∈ shards,
    a.set.source = b.set.source → a.key.hash = b.key.hash → a.set.start = b.set.start
    → a.payload = b.payload ∧ a.set.seriesCount = b.set.seriesCount))

variable {start stop : Timestamp}

/-- The window reads nothing of a shard but its samples. -/
theorem window_congr {a b : Shard} (payload : a.payload = b.payload)
    (count : a.set.seriesCount = b.set.seriesCount)
    : (Offer.mk a start stop).window = (Offer.mk b start stop).window := by
  simp only [Offer.window, payload, count]

/-- The accepted ones of agreeing shards agree. -/
theorem consistent_offers {shards : List Shard} (forms : FormsAgree shards)
    (copies : CopiesAgree shards)
    : (Ledger.of (offers start stop shards)).Consistent := by
  have origin {filing : Filing} (h : filing ∈ Ledger.of (offers start stop shards))
      : ∃ shard ∈ shards, filing.offer = ⟨shard, start, stop⟩ := by
    obtain ⟨shard, member, he⟩ := List.mem_map.mp (Ledger.mem_of.mp h)
    exact ⟨shard, member, he.symm⟩
  refine ⟨fun a ha b hb slot => ?_, fun a ha b hb slot first => ?_⟩
  · obtain ⟨x, hx, ox⟩ := origin ha
    obtain ⟨y, hy, oy⟩ := origin hb
    simp only [Filing.slot, Filing.source, Filing.key, Prod.mk.injEq, ox, oy] at slot ⊢
    have form := forms x hx y hy slot.1 slot.2
    exact congrArg₂ HashKey.mk slot.2 form
  · obtain ⟨x, hx, ox⟩ := origin ha
    obtain ⟨y, hy, oy⟩ := origin hb
    simp only [Filing.slot, Filing.source, Filing.key, Filing.start, Filing.records,
      Prod.mk.injEq, ox, oy] at slot first ⊢
    have same := copies x hx y hy slot.1 slot.2 first
    simp only [Offer.records, window_congr same.1 same.2]

end Shard

/-- Where shards of one slot agree on the form of the identity, and shards of one slot and start on
the samples, two deliveries of the same shards make tables that count the same and flush the same
into every writer. The samples of a slot are then written start by start, each start once.
-/
theorem ShardTable.flush_delivery_irrelevant (start stop : Timestamp) {first second : List Shard}
    (same : ∀ shard, shard ∈ first ↔ shard ∈ second) (forms : Shard.FormsAgree first)
    (copies : Shard.CopiesAgree first)
    : ∃ table other,
        empty.ingestAll (Shard.offers start stop first)
          = (table, (Shard.offers start stop first).map Offer.outcome)
        ∧ empty.ingestAll (Shard.offers start stop second)
          = (other, (Shard.offers start stop second).map Offer.outcome)
        ∧ table.seriesCount = other.seriesCount
        ∧ (∀ registry writer, table.flush registry writer = other.flush registry writer)
        ∧ (∀ registry stream count outer,
            stream.room = none
            → ∃ next counted,
                table.flush registry ⟨stream, ⟨⟨.array, count⟩ :: outer, false⟩⟩
                = (.empty,
                    ⟨stream.extend (separated count
                        (((Ledger.of (Shard.offers start stop first)).entries registry).map
                          fun entry => entry.toJson.text)),
                      ⟨⟨.array, next⟩ :: outer, false⟩⟩,
                    .ok counted))
        ∧ (∀ registry, (Ledger.of (Shard.offers start stop first)).Layout registry)
        ∧ (∀ shard ∈ first,
            (Offer.mk shard start stop).outcome = .ok .accepted
            → (shard.set.start, (Offer.mk shard start stop).records)
              ∈ (Ledger.of (Shard.offers start stop first)).fragments
                  (shard.set.source, shard.key.hash))
        ∧ ∀ slot,
            ((Ledger.of (Shard.offers start stop first)).fragments slot).Pairwise fun a b =>
              a.1.epoch < b.1.epoch ∨ a.1.epoch = b.1.epoch ∧ a.1.nanos < b.1.nanos := by
  have consistent : (Ledger.of (Shard.offers start stop first)).Consistent :=
    Shard.consistent_offers forms copies
  have members (filing : Filing)
      : filing ∈ Ledger.of (Shard.offers start stop first)
        ↔ filing ∈ Ledger.of (Shard.offers start stop second) := by
    simp only [Ledger.mem_of, Shard.offers, List.mem_map, same]
  have tables := consistent.table_congr members
  refine ⟨_, _, ingestAll_eq [] _, ingestAll_eq [] _, congrArg seriesCount tables,
    fun registry writer => congrArg (fun table => flush table registry writer) tables,
    ?_, Ledger.layout _, ?_, fun slot => ?_⟩
  · intro registry stream count outer unlimited
    obtain ⟨next, _, flushed⟩ := Ledger.flush_table (Ledger.of (Shard.offers start stop first))
      registry unlimited count outer
    exact ⟨next, _, flushed⟩
  · intro shard member accepted
    have filed : Filing.mk ⟨shard, start, stop⟩ accepted
        ∈ Ledger.of (Shard.offers start stop first) :=
      Ledger.mem_of.mpr (List.mem_map.mpr ⟨shard, member, rfl⟩)
    have kept := consistent.recordsAt_eq filed
    refine List.mem_map.mpr ⟨shard.set.start, ?_, congrArg (Prod.mk _) kept⟩
    exact mem_inOrder.mpr (List.mem_map.mpr ⟨_, Ledger.mem_ofSlot.mpr ⟨filed, rfl⟩, rfl⟩)
  · exact (Ledger.fragments_ascend _ slot).imp fun h => Timestamp.lt_iff.mp h

/-- A shard that comes twice, the second time after a later one. -/
theorem ShardTable.flush_delivery_irrelevant_redelivered
    : ∃ table other,
        empty.ingestAll
            (Shard.offers (.ofEpoch 0) (.ofEpoch 60)
              [(Offer.single 7 40 (.int 6)).shard, (Offer.single 7 30 (.int 5)).shard])
          = (table, [.ok .accepted, .ok .accepted])
        ∧ empty.ingestAll
            (Shard.offers (.ofEpoch 0) (.ofEpoch 60)
              [(Offer.single 7 30 (.int 5)).shard, (Offer.single 7 40 (.int 6)).shard,
                (Offer.single 7 30 (.int 5)).shard])
          = (other, [.ok .accepted, .ok .accepted, .ok .accepted])
        ∧ ∀ registry writer, table.flush registry writer = other.flush registry writer := by
  have same (shard : Shard)
      : shard ∈ [(Offer.single 7 40 (.int 6)).shard, (Offer.single 7 30 (.int 5)).shard]
        ↔ shard ∈ [(Offer.single 7 30 (.int 5)).shard, (Offer.single 7 40 (.int 6)).shard,
            (Offer.single 7 30 (.int 5)).shard] := by
    simp only [List.mem_cons, List.not_mem_nil, or_false]
    tauto
  obtain ⟨table, other, taken, again, _, flushed, _⟩ := flush_delivery_irrelevant
    (.ofEpoch 0) (.ofEpoch 60) same (by decide) (by decide)
  refine ⟨table, other, taken.trans (congrArg _ ?_), again.trans (congrArg _ ?_), flushed⟩
  · decide +kernel
  · decide +kernel

end SeriesWire
