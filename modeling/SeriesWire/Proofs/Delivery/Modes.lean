import SeriesWire.Proofs.Delivery.Replies
import SeriesWire.Proofs.Shard.Cutting

/-! Both ways of delivery make the same document.
Sources may be delivered as one result each, or cut into shards that come in any order: the stream
receives the same bytes.
-/

namespace SeriesWire

open Json

-----------------------------------------------------------------------------------------
-- Identities
-----------------------------------------------------------------------------------------

/-- An identity that was registered, or known before, is found under its hash as long as no other
one of this hash is registered, by induction on the names.
-/
theorem Registry.get?_foldl_register {names : List SeriesName} {id : SeriesName}
    (registry : Registry) (distinct : ∀ other ∈ names, other.hash = id.hash → other = id)
    (known : id ∈ names ∨ registry.get? ⟨id.hash, .string⟩ = some id)
    : (names.foldl Registry.register registry).get? ⟨id.hash, .string⟩ = some id := by
  induction names generalizing registry with
  | nil => exact known.resolve_left (by simp)
  | cons name rest ih =>
      refine ih (registry.register name) (fun other member => distinct other (by simp [member])) ?_
      by_cases same : name.hash = id.hash
      · have eq := distinct name (by simp) same
        exact .inr (by simp [register, registerAs, get?, eq])
      · -- A name of another hash neither is the identity nor hides it.
        refine known.imp (fun member => ?_) fun before => ?_
        · exact (List.mem_cons.mp member).resolve_left fun he => same (he ▸ rfl)
        · rw [get?] at before ⊢
          rw [register, registerAs, List.lookup_cons, before]
          have other : ((⟨id.hash, .string⟩ : HashKey) == ⟨name.hash, .string⟩) = false := by
            simpa using fun he => same he.symm
          rw [other]

/-- A registry knows the series whose names were registered, if these are told apart by hash. -/
theorem Registry.knows_foldl_register {names : List SeriesName} {sources : List CutSource}
    (registry : Registry) (distinct : ∀ a ∈ names, ∀ b ∈ names, a.hash = b.hash → a = b)
    (named : ∀ source ∈ sources, ∀ series ∈ source.series, series.name ∈ names)
    : (names.foldl Registry.register registry).Knows sources := by
  intro source hs series hr
  have member := named source hs series hr
  exact registry.get?_foldl_register (fun other ho same => distinct other ho _ member same)
    (.inl member)

-----------------------------------------------------------------------------------------
-- Whole sources
-----------------------------------------------------------------------------------------

/-- A series has one entry if it is visible, and none otherwise. -/
theorem CutSeries.entries_eq (series : CutSeries) {result : QueryResult} {start stop : Timestamp}
    {options : Options} (gridless : result.grid = none) (opening : start.nanos = 0)
    (closing : stop.nanos = 0) (seconds : options.millis = false)
    : (EntryContext.ofResult result start stop options).entries series.name
        [.numeric (series.points.map Point.sample)]
      = if series.visible start stop then [series.toJson start stop] else [] := by
  have entries := @EntryContext.entries_samples (.ofResult result start stop options) opening
    closing gridless seconds series.points series.ordered series.name
  refine entries.trans ?_
  rw [visible, toJson]
  by_cases h : Point.shown start stop series.points = [] <;> simp [EntryContext.ofResult, h]

namespace CutSource

theorem ids_whole (source : CutSource) (query : Query)
    : source.whole.ids query = .ok (source.series.map CutSeries.name) := by
  have form : source.whole.idForm = .string := by
    simp [QueryResult.idForm, whole, SeriesId.form]
  have named (series : List CutSeries)
      : (series.map fun series : CutSeries =>
            (⟨.named series.name, [.numeric (series.points.map Point.sample)]⟩ : Series)).mapM
          (fun series => series.id.resolve query.resolver)
        = .ok (series.map CutSeries.name) := by
    induction series with
    | nil => rfl
    | cons first rest ih =>
        rw [List.map_cons, List.mapM_cons, ih]
        rfl
  rw [QueryResult.ids, form, QueryResult.resolve, if_neg (by simp), whole, named]
  rfl

/-- The entries of a whole source, for each of its series those of the samples. -/
theorem series_entryFor (source : CutSource) (query : Query) (options : Options)
    : (source.whole.entryFor query options).series
      = source.series.map fun series =>
          (EntryContext.ofResult source.whole query.start query.stop options).entries series.name
            [.numeric (series.points.map Point.sample)] := by
  rw [QueryResult.entryFor, source.ids_whole query, QueryResult.entry]
  simp only [Except.toOption, Option.getD_some]
  rw [whole, List.zip_map', List.map_map]
  rfl

/-- A whole source has the result that its samples in the window make. -/
theorem toJson_whole (source : CutSource) {query : Query} {options : Options}
    (start : query.start.nanos = 0) (stop : query.stop.nanos = 0)
    (seconds : options.millis = false)
    : (source.whole.entryFor query options).toJson = source.toJson query.start query.stop := by
  have data : (source.whole.entryFor query options).series.flatten
      = (source.series.filter (CutSeries.visible query.start query.stop)).map
          (CutSeries.toJson query.start query.stop) := by
    rw [series_entryFor, ← List.flatMap_def]
    induction source.series with
    | nil => rfl
    | cons first rest ih =>
        rw [List.flatMap_cons, ih, first.entries_eq rfl start stop seconds, List.filter_cons]
        split <;> rfl
  have silent : (source.whole.entryFor query options).nameSpace = none := by
    simp [QueryResult.entryFor, QueryResult.entry, whole, Strand.nameSpace?]
  rw [SourceEntry.toJson, data, SourceEntry.ending, silent]
  rfl

end CutSource

-----------------------------------------------------------------------------------------
-- Both ways of delivery
-----------------------------------------------------------------------------------------

namespace Session

variable {session : Session} {query : Query} {options : Options} {stream : Stream}

/-- Delivering the shards of cut sources in any order leaves the document of the sources. -/
theorem Tracks.run_shards (tracks : session.Tracks query options stream [])
    (unlimited : stream.room = none) {sources : List CutSource}
    (ascending : CutSource.Ascending sources) (known : query.registry.Knows sources)
    (visible
      : ∀ source ∈ sources, ∃ series ∈ source.series, series.visible query.start query.stop)
    {shards : List Shard} (perm : shards.Perm (sources.flatMap CutSource.shards))
    : (session.run (shards.map .shard ++ [.complete])).2
        = (Shard.offers query.start query.stop shards).map Offer.reply ++ [.done]
      ∧ (session.run (shards.map .shard ++ [.complete])).1.document
        = .closedWith stream
            (sources.map fun source => (source.toJson query.start query.stop).text)
            (shownLogs query) := by
  have ledger := History.ledger_shards query shards
  have cut : (History.ledger ((shards.map Request.shard).zip
      ((Shard.offers query.start query.stop shards).map Offer.reply)) query).OfCut
        query.start query.stop sources := by
    rw [ledger]
    exact Ledger.ofCut_of_perm perm
  have texts := cut.texts_entries ascending known visible
  have ends := tracks.run_complete_document unlimited (by simp)
    (tracks.replies_shards rfl shards) (cut.countP_unknown ascending known)
  rw [History.entries, History.wholes_shards, List.isEmpty_nil, if_pos rfl, texts] at ends
  exact ends

/-- Delivering cut sources whole leaves their document. -/
theorem Tracks.run_wholes (tracks : session.Tracks query options stream [])
    (unlimited : stream.room = none) (opening : query.start.nanos = 0)
    (closing : query.stop.nanos = 0) (seconds : options.millis = false) (sources : List CutSource)
    : (session.run ((sources.map CutSource.whole).map .whole ++ [.complete])).2
        = ((sources.map CutSource.whole).map fun _ => .done) ++ [.done]
      ∧ (session.run ((sources.map CutSource.whole).map .whole ++ [.complete])).1.document
        = .closedWith stream
            (sources.map fun source => (source.toJson query.start query.stop).text)
            (shownLogs query) := by
  have known (result : QueryResult) (member : result ∈ sources.map CutSource.whole)
      : ∃ ids, result.ids query = .ok ids := by
    obtain ⟨source, _, rfl⟩ := List.mem_map.mp member
    exact ⟨_, source.ids_whole query⟩
  have ledger : History.ledger (((sources.map CutSource.whole).map Request.whole).zip
      ((sources.map CutSource.whole).map fun _ => .done)) query = [] := by
    rw [History.ledger, History.accepted_wholes]
    rfl
  have texts : (History.entries (((sources.map CutSource.whole).map Request.whole).zip
        ((sources.map CutSource.whole).map fun _ => .done)) query options).map
          (fun entry => entry.toJson.text)
      = sources.map fun source => (source.toJson query.start query.stop).text := by
    rw [History.entries, ledger, History.wholes_wholes, Ledger.entries_nil]
    cases sources with
    | nil => rfl
    | cons first rest =>
        rw [List.map_cons, List.isEmpty_cons, if_neg (by simp), ← List.map_cons, List.map_map,
          List.map_map]
        refine List.map_congr_left fun source _ => ?_
        simp only [Function.comp_apply, source.toJson_whole opening closing seconds]
  have ends := tracks.run_complete_document unlimited (by simp)
    (tracks.replies_wholes unlimited rfl known) (by rw [History.unresolved, ledger]; rfl)
  rw [texts] at ends
  exact ends

/-- Both ways of delivery make the same document. Sources are cut into shards, series by series, and
the shards are delivered in any order; or each source is delivered as one result. Nothing is refused
either way, and the documents are equal: both are closed and have the text of the sources with the
values in the window. Values out of the window, shards without other values, and series without
other shards leave no trace in either.
-/
theorem run_shards_eq_run_wholes {others : Options} {registry : Registry}
    {names : List SeriesName} {sources : List CutSource} {shards : List Shard}
    (window : query.start ≤ query.stop) (opening : query.start.nanos = 0)
    (closing : query.stop.nanos = 0) (seconds : others.millis = false)
    (unlimited : stream.room = none)
    (registered : query.registry = names.foldl Registry.register registry)
    (distinct : ∀ a ∈ names, ∀ b ∈ names, a.hash = b.hash → a = b)
    (named : ∀ source ∈ sources, ∀ series ∈ source.series, series.name ∈ names)
    (ascending : CutSource.Ascending sources)
    (visible
      : ∀ source ∈ sources, ∃ series ∈ source.series, series.visible query.start query.stop)
    (perm : shards.Perm (sources.flatMap CutSource.shards))
    : ∃ sharded whole,
        start query options stream = .ok sharded
        ∧ start query others stream = .ok whole
        ∧ (∀ cause, .failed cause ∉ (sharded.run (shards.map .shard ++ [.complete])).2)
        ∧ (∀ cause,
            .failed cause ∉ (whole.run ((sources.map CutSource.whole).map .whole ++ [.complete])).2)
        ∧ (sharded.run (shards.map .shard ++ [.complete])).1.document
          = (whole.run ((sources.map CutSource.whole).map .whole ++ [.complete])).1.document
        ∧ let document := (sharded.run (shards.map .shard ++ [.complete])).1.document
          document.state = .closed
          ∧ document.writer.stream
            = stream.extend (Document.text
                (sources.map fun source => (source.toJson query.start query.stop).text)
                (if query.logLevel = .off then none else some query.logs)) := by
  have started (options : Options)
      : ∃ session, start query options stream = .ok session := by
    rw [start, if_neg (Timestamp.le_iff_not_lt.mp window)]
    exact ⟨_, rfl⟩
  obtain ⟨sharded, startsSharded⟩ := started options
  obtain ⟨whole, startsWhole⟩ := started others
  have known : query.registry.Knows sources := by
    rw [registered]
    exact registry.knows_foldl_register distinct named
  obtain ⟨filed, partwise⟩ :=
    (Tracks.start startsSharded).run_shards unlimited ascending known visible perm
  obtain ⟨written, entire⟩ :=
    (Tracks.start startsWhole).run_wholes unlimited opening closing seconds sources
  refine ⟨sharded, whole, startsSharded, startsWhole, ?_, ?_, partwise.trans entire.symm, ?_⟩
  · intro cause member
    rw [filed] at member
    obtain ⟨shard, offered, answer⟩ : ∃ shard ∈ shards,
        (Offer.mk shard query.start query.stop).reply = .failed cause := by
      simpa [Shard.offers] using member
    obtain ⟨source, _, cut⟩ := List.mem_flatMap.mp (perm.mem_iff.mp offered)
    obtain ⟨series, _, cut⟩ := List.mem_flatMap.mp cut
    obtain ⟨piece, hp, rfl⟩ := List.mem_map.mp cut
    rw [Offer.reply, source.outcome_shard hp] at answer
    simp at answer
  · intro cause member
    rw [written] at member
    simp at member
  · rw [partwise]
    exact ⟨rfl, rfl⟩

end Session

/-- A piece that is packed from its samples. -/
def Piece.ofPoints (start stop : Timestamp) (points : List Point) : Piece where
  start := start
  stop := stop
  seriesCount := 1
  counted := by decide
  points := points
  payload := .ofSamples (points.map Point.packed)
  carries := PackedArray.carries_ofSamples points

/-- A source with one series of three samples, cut behind the second. -/
def CutSource.halved : CutSource where
  node := "node"
  dataSource := "cpu"
  kind := .other
  rollup := none
  series := [{
    name := .ofMetric "cpu"
    pieces := [
      .ofPoints (.ofEpoch 0) (.ofEpoch 30) [⟨10, by decide, .int 5⟩, ⟨20, by decide, .int 6⟩],
      .ofPoints (.ofEpoch 30) (.ofEpoch 90) [⟨70, by decide, .int 7⟩]]
    ascending := by decide +kernel
    ordered := by simp [Piece.ofPoints, Point.Ordered] }]
  ascending := List.pairwise_singleton _ _

/-- The later shard comes first and has nothing to show. -/
theorem Session.run_shards_eq_run_wholes_halved
    : ∃ sharded whole,
        start { Query.firstMinute with registry := Registry.empty.register (.ofMetric "cpu") }
          .standard .unlimited = .ok sharded
        ∧ start { Query.firstMinute with registry := Registry.empty.register (.ofMetric "cpu") }
          .standard .unlimited = .ok whole
        ∧ (sharded.run (CutSource.halved.shards.reverse.map .shard ++ [.complete])).1.document
          = (whole.run [.whole CutSource.halved.whole, .complete]).1.document
        ∧ (whole.run [.whole CutSource.halved.whole, .complete]).1.document.writer.stream
          = Stream.unlimited.extend
              ("\x7b\"results\":[\x7b\"source\":\"node:cpu\",\"data\":["
                ++ "\x7b\"metric\":\"cpu\",\"tags\":\x7b\x7d,\"aggregateTags\":[],"
                ++ "\"NumericType\":\x7b\"10\":5,\"20\":6\x7d\x7d]\x7d],"
                ++ "\"log\":[\"ready\"]\x7d") := by
  obtain ⟨sharded, whole, startsSharded, startsWhole, _, _, same, _, accepted⟩ :=
    @run_shards_eq_run_wholes
      { Query.firstMinute with registry := Registry.empty.register (.ofMetric "cpu") }
      .standard .unlimited .standard .empty [.ofMetric "cpu"] [.halved]
      CutSource.halved.shards.reverse (by decide +kernel) rfl rfl rfl rfl rfl
      (by simp) (by simp [CutSource.halved]) (List.pairwise_singleton _ _)
      (by
        intro source member
        obtain rfl := List.mem_singleton.mp member
        exact ⟨_, List.mem_singleton.mpr rfl, by decide +kernel⟩)
      (by simp)
  refine ⟨sharded, whole, startsSharded, startsWhole, same, ?_⟩
  rw [same] at accepted
  refine accepted.trans (congrArg (Stream.extend _) ?_)
  decide +kernel

end SeriesWire
