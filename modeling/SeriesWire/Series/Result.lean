import SeriesWire.Identity.Name
import SeriesWire.Instant.Grid
import SeriesWire.Series.Value

/-! Series and the results of query nodes. -/

namespace SeriesWire

/-- A run of values of one kind. -/
inductive Strand where
  | numeric (samples : List (Sample Number))
  | summary (samples : List (Sample Summary))
  | array (samples : List (Sample DenseArray))
  | status (nameSpace : Option String) (values : List Status)
  | events (values : List Event)

/-- A logical series: its identity and its strands in order. -/
structure Series where
  id : SeriesId
  strands : List Strand

/-- The kind of node that made a result. Summarizers show every aggregation of a summary. -/
inductive SourceKind where
  | summarizer
  | other
  deriving DecidableEq, Repr

namespace SourceKind

def keyword : SourceKind → String
  | .summarizer => "summarizer"
  | .other => "other"

def ofKeyword? (text : String) : Option SourceKind :=
  [SourceKind.summarizer, .other].find? fun kind => kind.keyword == text

end SourceKind

/-- The names of aggregations by id. -/
structure Rollup where
  names : SortedMap Int32 String
  deriving DecidableEq

def Rollup.standard : Rollup :=
  ⟨.ofList [(0, "sum"), (1, "count"), (2, "min"), (3, "max"), (5, "avg")]⟩

/-- One result set of a query node. -/
structure QueryResult where
  node : String
  dataSource : String
  kind : SourceKind
  grid : Option Grid
  rollup : Option Rollup
  series : List Series

namespace QueryResult

/-- The key by which results are grouped. -/
def source (result : QueryResult) : String :=
  result.node ++ ":" ++ result.dataSource

/-- Encoded identities anywhere make the whole result need a resolver. -/
def idForm (result : QueryResult) : IdForm :=
  if result.series.any fun series => series.id.form == .byte then .byte else .string

end QueryResult

end SeriesWire
