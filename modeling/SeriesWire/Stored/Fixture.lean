import SeriesWire.Stored.Series

/-! Fixtures: a query with all its results or shards, as one JSON text. -/

namespace SeriesWire

open Json

structure StoredGrid where
  start : Int64
  stop : Int64
  interval : Int64
  unit : TimeUnit
  zone : Option String

structure StoredResult where
  node : String
  dataSource : String
  kind : SourceKind
  grid : Option StoredGrid
  series : List StoredSeries

structure StoredShard where
  id : SeriesName
  node : String
  dataSource : String
  start : Int64
  stop : Int64
  points : List (Int64 × Number)

structure Fixture where
  start : Int64
  stop : Int64
  logLevel : LogLevel
  logs : List String
  options : Options
  encoded : List (EncodedId × SeriesName)
  results : List StoredResult
  shards : List StoredShard

def StoredGrid.decoder : Decoder StoredGrid := fun depth node => do
  let record ← Record.of? ["start", "end", "interval", "units", "timezone"] depth node
  return {
    start := ← record.required "start" .int64
    stop := ← record.required "end" .int64
    interval := ← record.required "interval" .int64
    unit := ← record.required "units" TimeUnit.decoder
    zone := ← record.defaulted "timezone" none (.nullable .string) }

def StoredResult.decoder : Decoder StoredResult := fun depth node => do
  let record ← Record.of? ["node_id", "data_source", "source_kind", "time_specification", "series"]
    depth node
  return {
    node := ← record.required "node_id" .string
    dataSource := ← record.required "data_source" .string
    kind := ← record.defaulted "source_kind" .other SourceKind.decoder
    grid := ← record.defaulted "time_specification" none (.nullable StoredGrid.decoder)
    series := ← record.defaulted "series" [] (.list StoredSeries.decoder) }

def StoredShard.decoder : Decoder StoredShard := fun depth node => do
  let record ← Record.of? ["id", "node_id", "data_source", "start", "end", "points"] depth node
  return {
    id := ← record.required "id" SeriesName.decoder
    node := ← record.required "node_id" .string
    dataSource := ← record.required "data_source" .string
    start := ← record.required "start" .int64
    stop := ← record.required "end" .int64
    points := ← record.required "points" (.list (.pair .int64 Number.decoder)) }

/-- An encoded identity and what it stands for. -/
def encodedEntry : Decoder (EncodedId × SeriesName) := fun depth node => do
  let record ← Record.of? ["bytes", "id"] depth node
  return (⟨← record.required "bytes" (.list .byte)⟩, ← record.required "id" SeriesName.decoder)

def Fixture.decoder : Decoder Fixture := fun depth node => do
  let record ← Record.of? ["start", "end", "log_level", "logs", "options", "byte_ids", "results",
    "shards"] depth node
  return {
    start := ← record.required "start" .int64
    stop := ← record.required "end" .int64
    logLevel := ← record.defaulted "log_level" .off LogLevel.decoder
    logs := ← record.defaulted "logs" [] (.list .string)
    options := ← record.defaulted "options" Options.standard Options.decoder
    encoded := ← record.defaulted "byte_ids" [] (.list encodedEntry)
    results := ← record.defaulted "results" [] (.list StoredResult.decoder)
    shards := ← record.defaulted "shards" [] (.list StoredShard.decoder) }

def StoredGrid.build (grid : StoredGrid) : Except SnapError Grid :=
  Grid.fixed (.ofEpoch grid.start) (.ofEpoch grid.stop) grid.interval grid.unit grid.zone

/-- The result with the standard aggregation names, if its grid can be made. -/
def StoredResult.build (stored : StoredResult) : Except SnapError QueryResult := do
  let grid ← match stored.grid with
    | some grid => some <$> grid.build
    | none => pure none
  return {
    node := stored.node
    dataSource := stored.dataSource
    kind := stored.kind
    grid
    rollup := some .standard
    series := stored.series.map StoredSeries.series }

/-- The packed shard of a series, all its times in seconds. -/
def StoredShard.build (stored : StoredShard) : Shard :=
  { key := ⟨stored.id.hash, .string⟩
    set := {
      node := stored.node
      dataSource := stored.dataSource
      start := .ofEpoch stored.start
      stop := .ofEpoch stored.stop
      seriesCount := 1 }
    payload := some (.ofSamples (stored.points.map fun (time, number) => (false, time, number))) }

end SeriesWire
