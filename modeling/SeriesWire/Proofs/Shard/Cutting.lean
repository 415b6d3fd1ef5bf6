import SeriesWire.Proofs.Series.Window
import SeriesWire.Proofs.Shard.Confluence

/-! Series that are cut into shards, and what a ledger of their shards holds.
Cutting loses nothing: the fragments of a series put together are its samples in the window, and a
piece, a series or a source without such samples leaves no trace.
-/

namespace SeriesWire

open Json

-----------------------------------------------------------------------------------------
-- Pieces, series and sources
-----------------------------------------------------------------------------------------

/-- A part of a series as one shard carries it. -/
structure Piece where
  start : Timestamp
  stop : Timestamp
  seriesCount : Nat
  counted : seriesCount ≠ 0
  points : List Point
  payload : PackedArray
  carries : payload.Carries points

/-- A series in order of time that is cut into pieces with ascending starts. -/
structure CutSeries where
  name : SeriesName
  pieces : List Piece
  ascending : pieces.Pairwise fun a b => a.start < b.start
  ordered : Point.Ordered (pieces.flatMap Piece.points)

/-- A source whose series ascend by hash, and the kind of node that would make it whole. -/
structure CutSource where
  node : String
  dataSource : String
  kind : SourceKind
  rollup : Option Rollup
  series : List CutSeries
  ascending : series.Pairwise fun a b => a.name.hash < b.name.hash

namespace CutSeries

/-- The samples of a series before it was cut. -/
def points (series : CutSeries) : List Point :=
  series.pieces.flatMap Piece.points

end CutSeries

namespace CutSource

def id (source : CutSource) : String :=
  source.node ++ ":" ++ source.dataSource

def shard (source : CutSource) (series : CutSeries) (piece : Piece) : Shard where
  key := ⟨series.name.hash, .string⟩
  set := ⟨source.node, source.dataSource, piece.start, piece.stop, piece.seriesCount⟩
  payload := some piece.payload

/-- The shards of a source, series by series and piece by piece. -/
def shards (source : CutSource) : List Shard :=
  source.series.flatMap fun series => series.pieces.map (source.shard series)

/-- The source as one result with all samples of each series. -/
def whole (source : CutSource) : QueryResult where
  node := source.node
  dataSource := source.dataSource
  kind := source.kind
  grid := none
  rollup := source.rollup
  series := source.series.map fun series =>
    ⟨.named series.name, [.numeric (series.points.map Point.sample)]⟩

end CutSource

-----------------------------------------------------------------------------------------
-- What lies in the window
-----------------------------------------------------------------------------------------

section Window

variable {start stop : Timestamp}

/-- A piece that a shard shows something of. -/
def Piece.visible (start stop : Timestamp) (piece : Piece) : Bool :=
  !(Point.shown start stop piece.points).isEmpty

/-- A series that the result shows something of. -/
def CutSeries.visible (start stop : Timestamp) (series : CutSeries) : Bool :=
  !(Point.shown start stop series.points).isEmpty

/-- Cutting commutes with the window. -/
theorem CutSeries.shown_points (series : CutSeries)
    : Point.shown start stop series.points
      = series.pieces.flatMap fun piece => Point.shown start stop piece.points :=
  List.filter_flatMap ..

theorem CutSeries.visible_iff {series : CutSeries}
    : series.visible start stop ↔ ∃ piece ∈ series.pieces, piece.visible start stop := by
  simp [visible, Piece.visible, shown_points]

theorem CutSeries.ordered_piece {series : CutSeries} {piece : Piece}
    (member : piece ∈ series.pieces)
    : Point.Ordered piece.points :=
  (List.pairwise_flatMap.mp series.ordered).1 piece member

/-- The shard of a piece offers the samples of the piece that lie in the window. -/
theorem CutSource.window_shard (source : CutSource) {series : CutSeries} {piece : Piece}
    (member : piece ∈ series.pieces)
    : (Offer.mk (source.shard series piece) start stop).window
      = .ok ((Point.shown start stop piece.points).map Point.record) := by
  rw [@Offer.window_of_counted ⟨source.shard series piece, start, stop⟩ _ piece.counted rfl]
  exact Packed.window_of_carries piece.carries (CutSeries.ordered_piece member)
    start.epoch.toInt stop.epoch.toInt

theorem CutSource.records_shard (source : CutSource) {series : CutSeries} {piece : Piece}
    (member : piece ∈ series.pieces)
    : (Offer.mk (source.shard series piece) start stop).records
      = (Point.shown start stop piece.points).map Point.record := by
  rw [Offer.records, source.window_shard member]
  rfl

/-- A piece is accepted if it has samples in the window, and skipped if not. -/
theorem CutSource.outcome_shard (source : CutSource) {series : CutSeries} {piece : Piece}
    (member : piece ∈ series.pieces)
    : (Offer.mk (source.shard series piece) start stop).outcome
      = .ok (if piece.visible start stop then .accepted else .skipped) := by
  have idle : (Offer.mk (source.shard series piece) start stop).idle = .skipped := by
    simp [Offer.idle, CutSource.shard, piece.counted]
  rw [Offer.outcome_eq_window, source.window_shard member, idle]
  by_cases h : Point.shown start stop piece.points = [] <;> simp [Except.map, Piece.visible, h]

end Window

-----------------------------------------------------------------------------------------
-- The ledger of the shards
-----------------------------------------------------------------------------------------

namespace CutSource

def Ascending (sources : List CutSource) : Prop :=
  sources.Pairwise fun a b => a.id < b.id

theorem eq_of_id_eq {sources : List CutSource} (ascending : Ascending sources) {a b : CutSource}
    (ha : a ∈ sources) (hb : b ∈ sources) (same : a.id = b.id)
    : a = b :=
  eq_of_key_eq CutSource.id (ascending.imp fun lt => compareOfLessAndEq_eq_lt.mpr lt) ha hb same

theorem eq_of_hash_eq {source : CutSource} {a b : CutSeries} (ha : a ∈ source.series)
    (hb : b ∈ source.series) (same : a.name.hash = b.name.hash)
    : a = b :=
  eq_of_key_eq (fun series : CutSeries => series.name.hash)
    (source.ascending.imp fun lt => compareOfLessAndEq_eq_lt.mpr lt) ha hb same

end CutSource

theorem CutSeries.eq_of_start_eq {series : CutSeries} {a b : Piece} (ha : a ∈ series.pieces)
    (hb : b ∈ series.pieces) (same : a.start = b.start)
    : a = b :=
  eq_of_key_eq Piece.start series.ascending ha hb same

namespace Ledger

/-- The ledger has the accepted shards of the sources, in any order. -/
def OfCut (ledger : Ledger) (start stop : Timestamp) (sources : List CutSource) : Prop :=
  ∀ filing : Filing,
    filing ∈ ledger
    ↔ ∃ source ∈ sources, ∃ series ∈ source.series, ∃ piece ∈ series.pieces,
        filing.offer = ⟨source.shard series piece, start, stop⟩

variable {start stop : Timestamp} {sources : List CutSource} {ledger : Ledger}

/-- Offering the shards of the sources in any order makes such a ledger. -/
theorem ofCut_of_perm {shards : List Shard}
    (perm : shards.Perm (sources.flatMap CutSource.shards))
    : (Ledger.of (Shard.offers start stop shards)).OfCut start stop sources := by
  intro filing
  simp only [mem_of, Shard.offers, List.mem_map, perm.mem_iff, List.mem_flatMap, CutSource.shards]
  constructor
  · rintro ⟨shard, ⟨source, hs, series, hr, piece, hp, rfl⟩, he⟩
    exact ⟨source, hs, series, hr, piece, hp, he.symm⟩
  · rintro ⟨source, hs, series, hr, piece, hp, he⟩
    exact ⟨_, ⟨source, hs, series, hr, piece, hp, rfl⟩, he.symm⟩

/-- A piece with samples in the window is on file, with these samples. -/
theorem OfCut.exists_filing (cut : ledger.OfCut start stop sources) {source : CutSource}
    (hs : source ∈ sources) {series : CutSeries} (hr : series ∈ source.series) {piece : Piece}
    (hp : piece ∈ series.pieces) (visible : piece.visible start stop)
    : ∃ filing ∈ ledger,
        filing.slot = (source.id, series.name.hash)
        ∧ filing.key = ⟨series.name.hash, .string⟩
        ∧ filing.start = piece.start
        ∧ filing.records = (Point.shown start stop piece.points).map Point.record := by
  have accepted : (Offer.mk (source.shard series piece) start stop).outcome = .ok .accepted := by
    rw [source.outcome_shard hp, if_pos visible]
  exact ⟨⟨_, accepted⟩, (cut _).mpr ⟨source, hs, series, hr, piece, hp, rfl⟩, rfl, rfl, rfl,
    source.records_shard hp⟩

/-- What is on file is a piece with samples in the window. -/
theorem OfCut.exists_piece (cut : ledger.OfCut start stop sources) {filing : Filing}
    (member : filing ∈ ledger)
    : ∃ source ∈ sources, ∃ series ∈ source.series, ∃ piece ∈ series.pieces,
        piece.visible start stop
        ∧ filing.slot = (source.id, series.name.hash)
        ∧ filing.key = ⟨series.name.hash, .string⟩
        ∧ filing.start = piece.start
        ∧ filing.records = (Point.shown start stop piece.points).map Point.record := by
  obtain ⟨source, hs, series, hr, piece, hp, offer⟩ := (cut filing).mp member
  have accepted := filing.accepted
  rw [offer, source.outcome_shard hp] at accepted
  refine ⟨source, hs, series, hr, piece, hp, ?_, ?_⟩
  · by_contra hidden
    rw [if_neg hidden] at accepted
    simp at accepted
  · have key : filing.key = ⟨series.name.hash, .string⟩ := by
      rw [Filing.key, offer]
      rfl
    refine ⟨?_, key, ?_, ?_⟩
    · rw [Filing.slot, Filing.source, key, offer]
      rfl
    · rw [Filing.start, offer]
      rfl
    · rw [Filing.records, offer, source.records_shard hp]

/-- The shards of cut series agree wherever they meet. -/
theorem OfCut.consistent (cut : ledger.OfCut start stop sources)
    (ascending : CutSource.Ascending sources)
    : ledger.Consistent := by
  refine ⟨fun a ha b hb slot => ?_, fun a ha b hb slot begins => ?_⟩
  · obtain ⟨x, _, u, _, _, _, _, slotA, keyA, _⟩ := cut.exists_piece ha
    obtain ⟨y, _, v, _, _, _, _, slotB, keyB, _⟩ := cut.exists_piece hb
    rw [slotA, slotB, Prod.mk.injEq] at slot
    rw [keyA, keyB, slot.2]
  · obtain ⟨x, hx, u, hu, p, hp, _, slotA, _, startA, recordsA⟩ := cut.exists_piece ha
    obtain ⟨y, hy, v, hv, q, hq, _, slotB, _, startB, recordsB⟩ := cut.exists_piece hb
    rw [slotA, slotB, Prod.mk.injEq] at slot
    rw [startA, startB] at begins
    obtain rfl := CutSource.eq_of_id_eq ascending hx hy slot.1
    obtain rfl := CutSource.eq_of_hash_eq hu hv slot.2
    obtain rfl := CutSeries.eq_of_start_eq hp hq begins
    rw [recordsA, recordsB]

theorem OfCut.mem_slot (cut : ledger.OfCut start stop sources)
    (ascending : CutSource.Ascending sources) {source : CutSource} (hs : source ∈ sources)
    {hash : UInt64}
    : (source.id, hash) ∈ ledger.map Filing.slot
      ↔ hash ∈ (source.series.filter (CutSeries.visible start stop)).map fun series =>
          series.name.hash := by
  simp only [List.mem_map, List.mem_filter]
  constructor
  · rintro ⟨filing, member, slot⟩
    obtain ⟨other, ho, series, hr, piece, hp, visible, used, _⟩ := cut.exists_piece member
    rw [used, Prod.mk.injEq] at slot
    obtain rfl := CutSource.eq_of_id_eq ascending ho hs slot.1
    exact ⟨series, ⟨hr, CutSeries.visible_iff.mpr ⟨piece, hp, visible⟩⟩, slot.2⟩
  · rintro ⟨series, ⟨hr, visible⟩, rfl⟩
    obtain ⟨piece, hp, shown⟩ := CutSeries.visible_iff.mp visible
    obtain ⟨filing, member, slot, _⟩ := cut.exists_filing hs hr hp shown
    exact ⟨filing, member, slot⟩

/-- The sources of the ledger are those that were cut, if each has a visible series. -/
theorem OfCut.sources_eq (cut : ledger.OfCut start stop sources)
    (ascending : CutSource.Ascending sources)
    (visible : ∀ source ∈ sources, ∃ series ∈ source.series, series.visible start stop)
    : ledger.sources = sources.map CutSource.id := by
  refine inOrder_eq ?_ fun id => ?_
  · exact List.pairwise_map.mpr (ascending.imp fun lt => compareOfLessAndEq_eq_lt.mpr lt)
  · simp only [List.mem_map]
    constructor
    · rintro ⟨filing, member, rfl⟩
      obtain ⟨source, hs, _, _, _, _, _, slot, _⟩ := cut.exists_piece member
      exact ⟨source, hs, (congrArg Prod.fst slot).symm⟩
    · rintro ⟨source, hs, rfl⟩
      obtain ⟨series, hr, shown⟩ := visible source hs
      obtain ⟨piece, hp, shown⟩ := CutSeries.visible_iff.mp shown
      obtain ⟨filing, member, slot, _⟩ := cut.exists_filing hs hr hp shown
      exact ⟨filing, member, congrArg Prod.fst slot⟩

/-- The hashes of a source in the ledger are those of its visible series. -/
theorem OfCut.hashes_eq (cut : ledger.OfCut start stop sources)
    (ascending : CutSource.Ascending sources) {source : CutSource} (hs : source ∈ sources)
    : ledger.hashes source.id
      = (source.series.filter (CutSeries.visible start stop)).map fun series =>
          series.name.hash := by
  refine inOrder_eq ?_ fun hash => ?_
  · refine List.pairwise_map.mpr (List.Pairwise.filter _ ?_)
    exact source.ascending.imp fun lt => compareOfLessAndEq_eq_lt.mpr lt
  · rw [mem_hashes_iff, cut.mem_slot ascending hs]

/-- The fragments of a series in the ledger are its visible pieces. -/
theorem OfCut.fragments_eq (cut : ledger.OfCut start stop sources)
    (ascending : CutSource.Ascending sources) {source : CutSource} (hs : source ∈ sources)
    {series : CutSeries} (hr : series ∈ source.series)
    : ledger.fragments (source.id, series.name.hash)
      = (series.pieces.filter (Piece.visible start stop)).map fun piece =>
          (piece.start, (Point.shown start stop piece.points).map Point.record) := by
  have starts : ledger.starts (source.id, series.name.hash)
      = (series.pieces.filter (Piece.visible start stop)).map Piece.start := by
    refine inOrder_eq (List.pairwise_map.mpr (List.Pairwise.filter _ series.ascending))
      fun begins => ?_
    simp only [List.mem_map, List.mem_filter, mem_ofSlot]
    constructor
    · rintro ⟨filing, ⟨member, slot⟩, rfl⟩
      obtain ⟨other, ho, series', hr', piece, hp, visible, used, _, start, _⟩ :=
        cut.exists_piece member
      rw [used, Prod.mk.injEq] at slot
      obtain rfl := CutSource.eq_of_id_eq ascending ho hs slot.1
      obtain rfl := CutSource.eq_of_hash_eq hr' hr slot.2
      exact ⟨piece, ⟨hp, visible⟩, start.symm⟩
    · rintro ⟨piece, ⟨hp, visible⟩, rfl⟩
      obtain ⟨filing, member, slot, _, start, _⟩ := cut.exists_filing hs hr hp visible
      exact ⟨filing, ⟨member, slot⟩, start⟩
  rw [fragments, starts, List.map_map]
  refine List.map_congr_left fun piece member => ?_
  obtain ⟨hp, visible⟩ := List.mem_filter.mp member
  obtain ⟨filing, filed, slot, _, start, records⟩ := cut.exists_filing hs hr hp visible
  have kept := (cut.consistent ascending).recordsAt_eq filed
  rw [slot, start, records] at kept
  exact congrArg (Prod.mk piece.start) kept

/-- The fragments of a series, put together, are its samples in the window. -/
theorem OfCut.samples_eq (cut : ledger.OfCut start stop sources)
    (ascending : CutSource.Ascending sources) {source : CutSource} (hs : source ∈ sources)
    {series : CutSeries} (hr : series ∈ source.series)
    : ledger.samples (source.id, series.name.hash)
      = .object ((Point.shown start stop series.points).map Point.member) := by
  -- Pieces that are not visible have no fragment, and no samples that would be missed.
  have hidden (pieces : List Piece)
      : (pieces.filter (Piece.visible start stop)).flatMap
            (fun piece => Point.shown start stop piece.points)
        = pieces.flatMap fun piece => Point.shown start stop piece.points := by
    induction pieces with
    | nil => rfl
    | cons piece rest ih =>
        by_cases h : Point.shown start stop piece.points = [] <;>
          simp [List.filter_cons, Piece.visible, h, ih]
  rw [samples, cut.fragments_eq ascending hs hr, List.flatMap_map, series.shown_points, ← hidden,
    List.map_flatMap]
  simp only [List.map_map]
  rfl

end Ledger

-----------------------------------------------------------------------------------------
-- The results of the shards
-----------------------------------------------------------------------------------------

/-- The entry of a series for its samples in the window. -/
def CutSeries.toJson (start stop : Timestamp) (series : CutSeries) : Json :=
  .object (series.name.members true
    ++ [("NumericType", .object ((Point.shown start stop series.points).map Point.member))])

/-- The result of a source, with an entry for each of its visible series. -/
def CutSource.toJson (start stop : Timestamp) (source : CutSource) : Json :=
  .object [
    ("source", .string source.id),
    ("data", .array ((source.series.filter (CutSeries.visible start stop)).map
      (CutSeries.toJson start stop)))]

/-- The registry knows every series under its own hash. -/
def Registry.Knows (registry : Registry) (sources : List CutSource) : Prop :=
  ∀ source ∈ sources, ∀ series ∈ source.series,
    registry.get? ⟨series.name.hash, .string⟩ = some series.name

namespace Ledger

variable {start stop : Timestamp} {sources : List CutSource} {ledger : Ledger}
  {registry : Registry}

theorem OfCut.identity_eq (cut : ledger.OfCut start stop sources)
    (ascending : CutSource.Ascending sources) (known : registry.Knows sources)
    {source : CutSource} (hs : source ∈ sources) {series : CutSeries} (hr : series ∈ source.series)
    (visible : series.visible start stop)
    : ledger.identity? registry (source.id, series.name.hash) = some series.name := by
  obtain ⟨piece, hp, shown⟩ := CutSeries.visible_iff.mp visible
  obtain ⟨filing, filed, slot, key, _⟩ := cut.exists_filing hs hr hp shown
  rw [identity?, ← slot, (cut.consistent ascending).key_eq filed, key]
  exact known source hs series hr

/-- Every slot has an identity. -/
theorem OfCut.countP_unknown (cut : ledger.OfCut start stop sources)
    (ascending : CutSource.Ascending sources) (known : registry.Knows sources)
    : ledger.slots.countP (fun slot => (ledger.identity? registry slot).isNone) = 0 := by
  refine List.countP_eq_zero.mpr fun slot member => ?_
  obtain ⟨filing, filed, rfl⟩ := mem_slots.mp member
  obtain ⟨source, hs, series, hr, piece, hp, shown, used, _⟩ := cut.exists_piece filed
  have visible := CutSeries.visible_iff.mpr ⟨piece, hp, shown⟩
  rw [used, cut.identity_eq ascending known hs hr visible]
  simp

theorem OfCut.resolved_eq (cut : ledger.OfCut start stop sources)
    (ascending : CutSource.Ascending sources) (known : registry.Knows sources)
    {source : CutSource} (hs : source ∈ sources)
    : ledger.resolved registry source.id
      = (source.series.filter (CutSeries.visible start stop)).map fun series =>
          (series.name.hash, series.name) := by
  rw [resolved, cut.hashes_eq ascending hs, List.filterMap_map, ← List.filterMap_eq_map]
  refine List.filterMap_congr fun series member => ?_
  obtain ⟨hr, visible⟩ := List.mem_filter.mp member
  simp only [Function.comp_apply, cut.identity_eq ascending known hs hr visible, Option.map_some]

/-- A source that was cut has the result that its samples in the window make. -/
theorem OfCut.toJson_sourceEntry (cut : ledger.OfCut start stop sources)
    (ascending : CutSource.Ascending sources) (known : registry.Knows sources)
    {source : CutSource} (hs : source ∈ sources)
    : (ledger.sourceEntry registry source.id).toJson = source.toJson start stop := by
  have data : (ledger.sourceEntry registry source.id).series.flatten
      = (source.series.filter (CutSeries.visible start stop)).map
          (CutSeries.toJson start stop) := by
    rw [flatten_series, cut.resolved_eq ascending known hs, List.map_map]
    refine List.map_congr_left fun series member => ?_
    simp only [Function.comp_apply, seriesEntry,
      cut.samples_eq ascending hs (List.mem_filter.mp member).1, CutSeries.toJson]
  rw [SourceEntry.toJson, data]
  rfl

/-- If every source shows something, the results of the shards are those of the sources in order. -/
theorem OfCut.texts_entries (cut : ledger.OfCut start stop sources)
    (ascending : CutSource.Ascending sources) (known : registry.Knows sources)
    (visible : ∀ source ∈ sources, ∃ series ∈ source.series, series.visible start stop)
    : (ledger.entries registry).map (fun entry => entry.toJson.text)
      = sources.map fun source => (source.toJson start stop).text := by
  -- A source that shows nothing has no result as shards, but an empty one as a whole.
  have all : (sources.map CutSource.id).filter
        (fun source => !(ledger.resolved registry source).isEmpty)
      = sources.map CutSource.id := by
    refine List.filter_eq_self.mpr fun id member => ?_
    obtain ⟨source, hs, rfl⟩ := List.mem_map.mp member
    obtain ⟨series, hr, shows⟩ := visible source hs
    rw [cut.resolved_eq ascending known hs]
    simpa using ⟨series, hr, shows⟩
  rw [entries_eq_filter, cut.sources_eq ascending visible, all, List.map_map, List.map_map]
  refine List.map_congr_left fun source hs => ?_
  simp only [Function.comp_apply, cut.toJson_sourceEntry ascending known hs]

end Ledger

end SeriesWire
