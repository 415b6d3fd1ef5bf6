import SeriesWire.Entry.Series
import SeriesWire.Json.Writer
import SeriesWire.Series.Packed
import SeriesWire.Shard.Shelf

/-! Shards of numeric series, collected by source and hash until the query is complete.
They may come in any order; a flush empties the table source by source.
-/

namespace SeriesWire

open Json

/-- The part of the query that a group of shards covers. -/
structure ShardSet where
  node : String
  dataSource : String
  start : Timestamp
  stop : Timestamp
  seriesCount : Nat
  deriving DecidableEq, Repr

/-- The key by which results are grouped. -/
def ShardSet.source (set : ShardSet) : String :=
  set.node ++ ":" ++ set.dataSource

/-- The samples of one series in the part of the query that its set covers. -/
structure Shard where
  key : HashKey
  set : ShardSet
  payload : Option PackedArray
  deriving DecidableEq, Repr

/-- What became of a shard: it carried nothing, nothing of it lay in the query, or it was filed. -/
inductive IngestOutcome where
  | empty
  | skipped
  | accepted
  deriving DecidableEq, Repr

/-- The series written by a flush, and those dropped because nobody knows their identity. -/
structure FlushCount where
  series : Nat
  unresolved : Nat
  deriving DecidableEq, Repr

/-- The shelves of every source, by hash. -/
structure ShardTable where
  sources : SortedMap String (SortedMap UInt64 Shelf)
  deriving DecidableEq

namespace ShardTable

def empty : ShardTable :=
  ⟨.empty⟩

def isEmpty (table : ShardTable) : Bool :=
  table.sources.isEmpty

def seriesCount (table : ShardTable) : Nat :=
  table.sources.values.foldl (fun count shelves => count + shelves.size) 0

/-- The member that a packed record adds to its series. -/
def recordMember (record : Packed.Record) : String × Json :=
  (toString record.seconds, record.number.toJson)

/-- The members of records, written without braces. -/
def fragment (records : List Packed.Record) : String :=
  String.intercalate "," (memberTexts (records.map recordMember))

/-- Puts a fragment on the shelf of its series; the first shard of a series makes the shelf. -/
def file (table : ShardTable) (shard : Shard) (fragment : String) : ShardTable :=
  let source := shard.set.source
  let shelves := (table.sources.get? source).getD .empty
  let shelf := (shelves.get? shard.key.hash).getD (.empty shard.key)
  let shelf := shelf.add shard.set.start fragment
  ⟨table.sources.insert source (shelves.insert shard.key.hash shelf)⟩

/-- Renders the samples of a shard that lie in the query, by whole seconds, and files them. -/
def ingest (table : ShardTable) (shard : Shard) (start stop : Timestamp)
    : Except Packed.PackedError (ShardTable × IngestOutcome) :=
  match shard.set.seriesCount, shard.payload with
  | 0, _ | _, none => .ok (table, .empty)
  | _, some payload => do
    let window ← Packed.WindowDecoder.of payload start.epoch.toInt stop.epoch.toInt
    -- A record cut off before the window ends refuses the whole shard.
    let records ← window.collect
    if records.isEmpty then return (table, .skipped)
    else return (table.file shard (fragment records), .accepted)

/-- The shelves that hold something, each with the identity that the registry knows for it. -/
def identified (registry : Registry) (shelves : SortedMap UInt64 Shelf)
    : List (Shelf × Option SeriesName) :=
  (shelves.values.filter fun shelf => !shelf.isEmpty).map fun shelf =>
    (shelf, registry.get? shelf.key)

/-- The tokens of one series of shards. -/
def seriesTokens (id : SeriesName) (shelf : Shelf) : List Token :=
  .openObject :: memberTokens (id.members true)
    ++ [.name "NumericType", .raw ("\x7b" ++ shelf.merged ++ "\x7d"), .closeObject]

/-- The tokens of a source: nothing if none of its series has an identity. -/
def sourceTokens (source : String) (found : List (SeriesName × Shelf)) : List Token :=
  if found.isEmpty then []
  else
    [.openObject, .name "source", .string source, .name "data", .openArray]
      ++ (found.flatMap fun (id, shelf) => seriesTokens id shelf)
      ++ [.closeArray, .closeObject]

/-- Writes the sources in order and counts. A source is taken from the table before it is written,
so a failure loses the source it happens in; the number of sources taken is returned. -/
def flushSources (registry : Registry)
    : List (String × SortedMap UInt64 Shelf) → Writer → Nat → FlushCount
      → Nat × Writer × Except Fault FlushCount
  | [], writer, taken, count => (taken, writer, .ok count)
  | (source, shelves) :: rest, writer, taken, count =>
    let shown := identified registry shelves
    let found := shown.filterMap fun (shelf, id) => id.map fun id => (id, shelf)
    match writer.writeAll (sourceTokens source found) with
    | (writer, .ok ()) =>
      flushSources registry rest writer (taken + 1)
        ⟨count.series + found.length, count.unresolved + (shown.length - found.length)⟩
    | (writer, .error fault) => (taken + 1, writer, .error fault)

/-- Empties the table into the results, sources in ascending order and series in ascending order of
their hashes. -/
def flush (table : ShardTable) (registry : Registry) (writer : Writer)
    : ShardTable × Writer × Except Fault FlushCount :=
  let (taken, writer, result) := flushSources registry table.sources.entries writer 0 ⟨0, 0⟩
  (⟨table.sources.drop taken⟩, writer, result)

end ShardTable

end SeriesWire
