import SeriesWire.Entry.Series
import SeriesWire.Json.Draft

/-! How the entries of a series are written.
Strand by strand the fields of the first entry go into one frame. The entry is written only if
something opened its frame, and further statuses and events are kept until then.
-/

namespace SeriesWire

open Json

/-- The fields of the first entry as far as they are written. -/
structure Frame where
  body : Draft
  /-- The series has values, so there will be an entry. -/
  opened : Bool
  /-- One of the values is a status or an event. -/
  embedded : Bool
  deriving DecidableEq, Repr

namespace Frame

def empty : Frame :=
  ⟨.start .insideObject, false, false⟩

/-- Opens the frame and writes members into it. -/
def write (frame : Frame) (members : Members) : Except Misuse Frame :=
  (frame.body.writeAll (memberTokens members)).map fun body => { frame with body, opened := true }

/-- Writes a status or an event, of which a frame takes one. -/
def embed (frame : Frame) (fields : Members) : Except Misuse Frame :=
  (frame.write fields).map fun next => { next with embedded := true }

end Frame

/-! Numbers are written kind by kind. Each kind tells whether it wrote anything. -/

namespace EntryContext

def encodeNumeric (ctx : EntryContext) (samples : List (Sample Number)) (frame : Frame)
    : Except Misuse (Frame × Bool) :=
  let values := ctx.window samples
  if values.isEmpty then .ok (frame, false)
  else
    let numbers := values.map fun sample => (sample.time, Number.toJson? sample.value)
    (frame.write [("NumericType", ctx.aligned numbers)]).map fun next => (next, true)

/-- Without an aggregation there are no columns, but still a first number for every sample: a gap.
-/
def encodeSummary (ctx : EntryContext) (samples : List (Sample Summary)) (frame : Frame)
    : Except Misuse (Frame × Bool) :=
  let values := ctx.window samples
  let ids := aggregations values
  if values.isEmpty then .ok (frame, false)
  else if ids.isEmpty ∧ ctx.layout = .named then .ok (frame, false)
  else
    let member :=
      match ctx.layout with
      | .first =>
        let first (sample : Sample Summary) : Json := Number.toJson? (pick ids.head? sample)
        ("NumericType", ctx.aligned (values.map fun sample => (sample.time, first sample)))
      | .named => ("NumericSummaryType", ctx.namedSummary values ids)
    (frame.write [member]).map fun next => (next, true)

/-- One more array, behind others of which it is known whether any was written. -/
def encodeRange (state : Frame × Bool) (sample : Sample DenseArray)
    : Except Misuse (Frame × Bool) :=
  match sample.value with
  | some dense =>
    if dense.offset < dense.stop then
      let cells := dense.range.map Number.toJson?
      (state.1.write [("NumericType", .array cells)]).map fun next => (next, true)
    else .ok state
  | none => .ok state

def encodeArray (ctx : EntryContext) (samples : List (Sample DenseArray)) (frame : Frame)
    : Except Misuse (Frame × Bool) :=
  if ctx.grid.isNone then .ok (frame, false)
  else (ctx.window samples).foldlM encodeRange (frame, false)

/-- The numbers of a strand; statuses and events have none. -/
def encodeNumbers (ctx : EntryContext) (frame : Frame) : Strand → Except Misuse (Frame × Bool)
  | .numeric samples => ctx.encodeNumeric samples frame
  | .summary samples => ctx.encodeSummary samples frame
  | .array samples => ctx.encodeArray samples frame
  | .status .. | .events _ => .ok (frame, false)

end EntryContext

/-- What strands left to be written: the frame of the first entry, and the fields of the further
ones.
-/
structure Encoding where
  frame : Frame
  further : List String
  deriving DecidableEq, Repr

namespace Encoding

def empty : Encoding :=
  ⟨.empty, []⟩

/-- The first status or event goes into the frame, and every other one is written for itself. -/
def addRecord (encoding : Encoding) (fields : Members) : Except Misuse Encoding :=
  if encoding.frame.embedded then
    (draft .insideObject (memberTokens fields)).map fun text =>
      { encoding with further := encoding.further ++ [text] }
  else (encoding.frame.embed fields).map fun frame => { encoding with frame }

def addStrand (ctx : EntryContext) (encoding : Encoding) : Strand → Except Misuse Encoding
  | .status _ values => (values.map Status.members).foldlM addRecord encoding
  | .events values => (values.map Event.members).foldlM addRecord encoding
  | numbers =>
    (ctx.encodeNumbers encoding.frame numbers).map fun (frame, _) => { encoding with frame }

def ofStrands (ctx : EntryContext) (strands : List Strand) : Except Misuse Encoding :=
  strands.foldlM (addStrand ctx) empty

/-- The fields of each entry. -/
def bodies (encoding : Encoding) : List String :=
  (if encoding.frame.opened then [encoding.frame.body.text] else []) ++ encoding.further

end Encoding

namespace EntryContext

/-- An entry around fields that are already written. -/
def entryAround (identity : Members) (body : String) : List Token :=
  .openObject :: (memberTokens identity ++ [.rawMembers body]) ++ [.closeObject]

/-- Writes the entries of a series and tells what they reveal. -/
def encodeSeries (ctx : EntryContext) (id : SeriesName) (strands : List Strand) (draft : Draft)
    : Except Misuse (Draft × SeriesOutcome) := do
  let encoding ← Encoding.ofStrands ctx strands
  let identity := id.members !(strands.any Strand.hidesMetric)
  let next ← draft.writeAll (encoding.bodies.flatMap (entryAround identity))
  return (next,
    { wroteValues := encoding.frame.opened
      wasStatus := strands.any Strand.isStatus
      nameSpace := strands.findSome? Strand.nameSpace? })

end EntryContext

end SeriesWire
