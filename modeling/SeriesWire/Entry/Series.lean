import SeriesWire.Entry.Members

/-! What identifies the entries of a series, and what they reveal about it. -/

namespace SeriesWire

namespace Strand

/-- A strand of statuses or events, even an empty one, hides the metric of its series. -/
def hidesMetric : Strand → Bool
  | .status .. | .events _ => true
  | _ => false

def isStatus : Strand → Bool
  | .status .. => true
  | _ => false

/-- The namespace of a status strand, unless it is empty. -/
def nameSpace? : Strand → Option String
  | .status nameSpace _ => nameSpace.filter fun text => !text.isEmpty
  | _ => none

end Strand

/-- What the entries of a series reveal to the result. -/
structure SeriesOutcome where
  wroteValues : Bool
  wasStatus : Bool
  nameSpace : Option String
  deriving DecidableEq, Repr

/-- The members that identify a series. -/
def SeriesName.members (id : SeriesName) (withMetric : Bool) : Members :=
  (if withMetric then [("metric", .string id.metric)] else [])
    ++ [("tags", .object (id.tags.entries.map fun (tag, value) => (tag, .string value))),
      ("aggregateTags", .array (id.aggregated.map .string))]

end SeriesWire
