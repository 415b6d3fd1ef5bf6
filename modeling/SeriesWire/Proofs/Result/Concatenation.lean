import Mathlib.Data.List.Forall2
import SeriesWire.Proofs.Result.SourceEntry

/-! A rendered result is what its series write on their own, put together in order.
A series without entries does not even leave a comma, but it may bring the namespace: that is the
first one of all series, whatever they write.
-/

namespace SeriesWire

open Json

namespace Strand

end Strand

namespace QueryResult

variable (result : QueryResult) (ids : List SeriesName) (start stop : Timestamp)
  (options : Options)

/-- What each series writes on its own. -/
def alone : List String :=
  (ids.zip result.series).map fun named =>
    String.intercalate ","
      (itemTexts
        ((EntryContext.ofResult result start stop options).entries named.1 named.2.strands))

end QueryResult

end SeriesWire
