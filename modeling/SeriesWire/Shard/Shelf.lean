import SeriesWire.Identity.Lookup
import SeriesWire.Instant.Timestamp
import SeriesWire.SortedMap

/-! The rendered fragments of one series, in the order of their shards' starts.
A fragment replaces an earlier one of the same start, so redelivery changes nothing.
-/

namespace SeriesWire

/-- The fragments of a series by shard start, under the key that its first shard gave. -/
structure Shelf where
  key : HashKey
  fragments : SortedMap Timestamp String
  deriving DecidableEq

namespace Shelf

def empty (key : HashKey) : Shelf :=
  ⟨key, .empty⟩

def add (shelf : Shelf) (start : Timestamp) (fragment : String) : Shelf :=
  { shelf with fragments := shelf.fragments.insert start fragment }

def isEmpty (shelf : Shelf) : Bool :=
  shelf.fragments.isEmpty

/-- All fragments in ascending order of their starts. -/
def merged (shelf : Shelf) : String :=
  String.intercalate "," shelf.fragments.values

end Shelf

end SeriesWire
