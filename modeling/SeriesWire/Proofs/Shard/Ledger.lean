import SeriesWire.Proofs.SortedMap.Tabulation
import SeriesWire.Shard.Table

/-! What a table holds after any history of shards.
Shards that are empty, out of the window or cut off leave no trace. The accepted ones make a ledger,
and the table is read off it slot by slot: a slot is a source with a hash.
-/

namespace SeriesWire

open Packed

-----------------------------------------------------------------------------------------
-- Offers and their outcomes
-----------------------------------------------------------------------------------------

/-- A shard that is offered to a table under a query window. -/
structure Offer where
  shard : Shard
  start : Timestamp
  stop : Timestamp

namespace Offer

/-- The records of the shard that lie in the window, or why it does not decode. A shard that carries
nothing has none.
-/
def window (offer : Offer) : Except PackedError (List Record) :=
  match offer.shard.set.seriesCount, offer.shard.payload with
  | 0, _ | _, none => .ok []
  | _, some payload => do
    (← WindowDecoder.of payload offer.start.epoch.toInt offer.stop.epoch.toInt).collect

/-- A shard with series is read through the window. -/
theorem window_of_counted {offer : Offer} {array : PackedArray}
    (counted : offer.shard.set.seriesCount ≠ 0) (carried : offer.shard.payload = some array)
    : offer.window
      = (do (← WindowDecoder.of array offer.start.epoch.toInt offer.stop.epoch.toInt).collect) := by
  obtain ⟨count, hc⟩ := Nat.exists_eq_succ_of_ne_zero counted
  simp only [window, hc, carried]

/-- What becomes of a shard that decodes but has no records in the window. -/
def idle (offer : Offer) : IngestOutcome :=
  if offer.shard.set.seriesCount = 0 ∨ offer.shard.payload = none then .empty else .skipped

def records (offer : Offer) : List Record :=
  offer.window.toOption.getD []

/-- What a table answers. The empty table stands for all: none looks at what it holds. -/
def outcome (offer : Offer) : Except PackedError IngestOutcome :=
  (ShardTable.empty.ingest offer.shard offer.start offer.stop).map Prod.snd

/-- A table takes the fragment of the records in the window, unless there are none. -/
theorem ingest_eq_window (offer : Offer) (table : ShardTable)
    : table.ingest offer.shard offer.start offer.stop
      = offer.window.map fun records =>
          if records = [] then (table, offer.idle)
          else (table.file offer.shard (ShardTable.fragment records), .accepted) := by
  unfold window idle ShardTable.ingest
  cases offer.shard.set.seriesCount with
  | zero => simp [Except.map]
  | succ count =>
      cases offer.shard.payload with
      | none => simp [Except.map]
      | some payload =>
          simp only [bind, Except.bind]
          cases WindowDecoder.of payload offer.start.epoch.toInt offer.stop.epoch.toInt with
          | error cause => rfl
          | ok window =>
              simp only
              cases window.collect with
              | error cause => rfl
              | ok records => cases records <;> simp [Except.map, pure, Except.pure]

theorem outcome_eq_window (offer : Offer)
    : offer.outcome
      = offer.window.map fun records => if records = [] then offer.idle else .accepted := by
  rw [outcome, ingest_eq_window]
  cases offer.window with
  | error cause => rfl
  | ok records => by_cases h : records = [] <;> simp [Except.map, h]

theorem idle_ne_accepted (offer : Offer) : offer.idle ≠ .accepted := by
  unfold idle
  split <;> simp

/-- An accepted shard has a record in the window. -/
theorem records_ne_nil {offer : Offer} (h : offer.outcome = .ok .accepted)
    : offer.records ≠ [] := by
  rw [outcome_eq_window] at h
  unfold records
  cases hw : offer.window with
  | error cause => simp [hw, Except.map] at h
  | ok records =>
      intro empty
      have none : records = [] := by simpa [Except.toOption] using empty
      simp [hw, Except.map, none, idle_ne_accepted] at h

/-- A table takes the fragment of an accepted shard and stays as it is otherwise. -/
theorem ingest_eq (offer : Offer) (table : ShardTable)
    : table.ingest offer.shard offer.start offer.stop
      = offer.outcome.map fun outcome =>
          (if outcome = .accepted then table.file offer.shard (ShardTable.fragment offer.records)
            else table, outcome) := by
  rw [ingest_eq_window, outcome_eq_window, records]
  cases offer.window with
  | error cause => rfl
  | ok records =>
      by_cases h : records = [] <;> simp [Except.map, Except.toOption, h, idle_ne_accepted]

end Offer

/-- An offer that was accepted. -/
structure Filing where
  offer : Offer
  accepted : offer.outcome = .ok .accepted

namespace Filing

def source (filing : Filing) : String :=
  filing.offer.shard.set.source

def key (filing : Filing) : HashKey :=
  filing.offer.shard.key

/-- The source and the hash under which the fragment is kept. -/
def slot (filing : Filing) : String × UInt64 :=
  (filing.source, filing.key.hash)

/-- The start that tells the fragments of a slot apart. -/
def start (filing : Filing) : Timestamp :=
  filing.offer.shard.set.start

def records (filing : Filing) : List Record :=
  filing.offer.records

theorem records_ne_nil (filing : Filing) : filing.records ≠ [] :=
  Offer.records_ne_nil filing.accepted

end Filing

/-- Shards that are offered under one window. -/
def Shard.offers (start stop : Timestamp) (shards : List Shard) : List Offer :=
  shards.map fun shard => ⟨shard, start, stop⟩

def Offer.filing? (offer : Offer) : Option Filing :=
  if h : offer.outcome = .ok .accepted then some ⟨offer, h⟩ else none

/-- Offers shards one after the other. A shard that does not decode leaves the table as it was. -/
def ShardTable.ingestAll (table : ShardTable)
    : List Offer → ShardTable × List (Except PackedError IngestOutcome)
  | [] => (table, [])
  | offer :: rest =>
    let answer := table.ingest offer.shard offer.start offer.stop
    let next := match answer with
      | .ok (next, _) => next
      | .error _ => table
    let (last, outcomes) := next.ingestAll rest
    (last, answer.map Prod.snd :: outcomes)


-----------------------------------------------------------------------------------------
-- The ledger of a history
-----------------------------------------------------------------------------------------

/-- The accepted shards in the order of their arrival. -/
abbrev Ledger :=
  List Filing

namespace Ledger

/-- The ledger of the offers that are accepted. -/
def of (offers : List Offer) : Ledger :=
  offers.filterMap Offer.filing?

/-- The ledger has exactly the offers that are accepted. -/
theorem mem_of {offers : List Offer} {filing : Filing}
    : filing ∈ Ledger.of offers ↔ filing.offer ∈ offers := by
  simp only [Ledger.of, List.mem_filterMap, Offer.filing?, Option.dite_none_right_eq_some,
    Option.some.injEq]
  constructor
  · rintro ⟨offer, member, _, rfl⟩
    exact member
  · intro member
    exact ⟨filing.offer, member, filing.accepted, rfl⟩

/-- The table that the accepted shards make. -/
def table (ledger : Ledger) : ShardTable :=
  ledger.foldl (fun table filing =>
    table.file filing.offer.shard (ShardTable.fragment filing.records)) .empty

/-- The slots that are in use, each once. -/
def slots (ledger : Ledger) : List (String × UInt64) :=
  (ledger.map Filing.slot).dedup

/-- The sources in ascending order. -/
def sources (ledger : Ledger) : List String :=
  inOrder (ledger.map Filing.source)

/-- The hashes of a source in ascending order. -/
def hashes (ledger : Ledger) (source : String) : List UInt64 :=
  inOrder ((ledger.filter fun filing => filing.source = source).map fun filing => filing.key.hash)

def ofSlot (ledger : Ledger) (slot : String × UInt64) : Ledger :=
  ledger.filter fun filing => filing.slot = slot

/-- The key of the first shard of a slot. -/
def key (ledger : Ledger) (slot : String × UInt64) : HashKey :=
  match ledger.ofSlot slot with
  | first :: _ => first.key
  | [] => ⟨slot.2, .string⟩

/-- The starts of the shards of a slot in ascending order, each once. -/
def starts (ledger : Ledger) (slot : String × UInt64) : List Timestamp :=
  inOrder ((ledger.ofSlot slot).map Filing.start)

def ofStart (ledger : Ledger) (slot : String × UInt64) (start : Timestamp) : Ledger :=
  (ledger.ofSlot slot).filter fun filing => filing.start = start

/-- The records of the last shard of a slot that has the given start. -/
def recordsAt (ledger : Ledger) (slot : String × UInt64) (start : Timestamp) : List Record :=
  ((ledger.ofStart slot start).getLast?.map Filing.records).getD []

/-- The fragments of a slot in ascending order of their starts. -/
def fragments (ledger : Ledger) (slot : String × UInt64) : List (Timestamp × List Record) :=
  (ledger.starts slot).map fun start => (start, ledger.recordsAt slot start)

def shelf (ledger : Ledger) (slot : String × UInt64) : Shelf where
  key := ledger.key slot
  fragments := .tabulate ((ledger.ofSlot slot).map Filing.start) fun start =>
    ShardTable.fragment (ledger.recordsAt slot start)

end Ledger

/-- Every answer is that of the offer alone, and the table grows by the accepted shards, by
induction on the offers.
-/
theorem ShardTable.ingestAll_eq (ledger : Ledger) (offers : List Offer)
    : ledger.table.ingestAll offers
      = (Ledger.table (ledger ++ offers.filterMap Offer.filing?), offers.map Offer.outcome) := by
  induction offers generalizing ledger with
  | nil => simp [ingestAll]
  | cons offer rest ih =>
      rw [ingestAll, Offer.ingest_eq]
      by_cases h : offer.outcome = .ok .accepted
      · have filed : Ledger.table (ledger ++ [⟨offer, h⟩])
            = ledger.table.file offer.shard (ShardTable.fragment offer.records) := by
          simp [Ledger.table, Filing.records]
        have later := ih (ledger ++ [⟨offer, h⟩])
        rw [filed] at later
        simp [h, Except.map, Offer.filing?, later]
      · cases ho : offer.outcome with
        | error cause => simp [Except.map, Offer.filing?, ih, ho]
        | ok outcome =>
            have idle : outcome ≠ .accepted := fun he => h (by rw [ho, he])
            simp [Except.map, Offer.filing?, ih, ho, idle]

end SeriesWire
