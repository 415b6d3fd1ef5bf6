import SeriesWire.Delivery.Session
import SeriesWire.Stored.Value

/-! The stored form of series, shards and settings. -/

namespace SeriesWire

open Json

/-- Statuses with the namespace they share. -/
structure StoredStatus where
  nameSpace : Option String
  values : List Status

/-- A series with at most one strand of each kind. A missing strand differs from an empty one. -/
structure StoredSeries where
  id : SeriesId
  numeric : Option (List (Sample Number))
  summary : Option (List (Sample Summary))
  array : Option (List (Sample DenseArray))
  status : Option StoredStatus
  events : Option (List Event)

/-- The strands in their fixed order. -/
def StoredSeries.strands (series : StoredSeries) : List Strand :=
  (series.numeric.map Strand.numeric).toList
    ++ (series.summary.map Strand.summary).toList
    ++ (series.array.map Strand.array).toList
    ++ (series.status.map fun status => Strand.status status.nameSpace status.values).toList
    ++ (series.events.map Strand.events).toList

def StoredSeries.series (series : StoredSeries) : Series :=
  ⟨series.id, series.strands⟩

def StoredStatus.decoder : Decoder StoredStatus := fun depth node => do
  let record ← Record.of? ["namespace", "values"] depth node
  return {
    nameSpace := ← record.defaulted "namespace" none (.nullable .string)
    values := ← record.defaulted "values" [] (.list Status.decoder) }

def StoredStatus.toJson (status : StoredStatus) : Json :=
  .object [
    ("namespace", orNull Json.string status.nameSpace),
    ("values", listOf Status.toJson status.values)]

def StoredSeries.decoder : Decoder StoredSeries := fun depth node => do
  let record ← Record.of? ["id", "numeric", "summary", "array", "status", "events"] depth node
  return {
    id := ← record.required "id" SeriesId.decoder
    numeric := ← record.defaulted "numeric" none (.nullable (.list (Sample.decoder Number.decoder)))
    summary :=
      ← record.defaulted "summary" none (.nullable (.list (Sample.decoder Summary.decoder)))
    array := ← record.defaulted "array" none (.nullable (.list (Sample.decoder DenseArray.decoder)))
    status := ← record.defaulted "status" none (.nullable StoredStatus.decoder)
    events := ← record.defaulted "events" none (.nullable (.list Event.decoder)) }

def StoredSeries.toJson (series : StoredSeries) : Json :=
  .object [
    ("id", series.id.toJson),
    ("numeric", orNull (listOf (Sample.toJson Number.toJson)) series.numeric),
    ("summary", orNull (listOf (Sample.toJson Summary.toJson)) series.summary),
    ("array", orNull (listOf (Sample.toJson DenseArray.toJson)) series.array),
    ("status", orNull StoredStatus.toJson series.status),
    ("events", orNull (listOf Event.toJson) series.events)]

/-- Every option that is missing has its standard value. -/
def Options.decoder : Decoder Options := fun depth node => do
  let record ← Record.of? ["ms_resolution", "parallel_threshold", "strict_partial_ids"] depth node
  return {
    millis := ← record.defaulted "ms_resolution" Options.standard.millis .bool
    parallelThreshold :=
      ← record.defaulted "parallel_threshold" Options.standard.parallelThreshold .size
    strictIds := ← record.defaulted "strict_partial_ids" Options.standard.strictIds .bool }

def Options.toJson (options : Options) : Json :=
  .object [
    ("ms_resolution", .bool options.millis),
    ("parallel_threshold", .int options.parallelThreshold),
    ("strict_partial_ids", .bool options.strictIds)]

def Rollup.decoder : Decoder Rollup := fun depth node => do
  let record ← Record.of? ["aggregations"] depth node
  return ⟨← record.required "aggregations" (.int32Map .string)⟩

def Rollup.toJson (rollup : Rollup) : Json :=
  .object [("aggregations", mapOf (fun id => s!"{id}") Json.string rollup.names)]

def SourceKind.decoder : Decoder SourceKind :=
  .choice SourceKind.ofKeyword?

def SourceKind.toJson (kind : SourceKind) : Json :=
  .string kind.keyword

def LogLevel.decoder : Decoder LogLevel :=
  .choice LogLevel.ofKeyword?

def LogLevel.toJson (level : LogLevel) : Json :=
  .string level.keyword

def PackedArray.decoder : Decoder PackedArray := fun depth node => do
  let record ← Record.of? ["data", "offset", "end"] depth node
  return {
    words := (← record.required "data" (.list .int64)).toArray
    offset := ← record.required "offset" .size
    stop := ← record.required "end" .size }

def PackedArray.toJson (array : PackedArray) : Json :=
  .object [
    ("data", listOf (fun (word : Int64) => .int word.toInt) array.words.toList),
    ("offset", .int array.offset),
    ("end", .int array.stop)]

def ShardSet.decoder : Decoder ShardSet := fun depth node => do
  let record ← Record.of? ["node_id", "data_source", "start", "end", "time_series_count"] depth node
  return {
    node := ← record.required "node_id" .string
    dataSource := ← record.required "data_source" .string
    start := ← record.required "start" Timestamp.decoder
    stop := ← record.required "end" Timestamp.decoder
    seriesCount := ← record.required "time_series_count" .size }

def ShardSet.toJson (set : ShardSet) : Json :=
  .object [
    ("node_id", .string set.node),
    ("data_source", .string set.dataSource),
    ("start", set.start.toJson),
    ("end", set.stop.toJson),
    ("time_series_count", .int set.seriesCount)]

end SeriesWire
