import SeriesWire.Delivery.Error
import SeriesWire.Entry.Encoding

/-! The text of a whole result.
Its series are written one after the other, or each for itself and then put together in the same
order.
-/

namespace SeriesWire

open Json

/-- A result as it stands in the document, with the number of its series that have values. -/
structure RenderedResult where
  source : String
  text : String
  series : Nat
  deriving DecidableEq, Repr

/-- The announcement of a grid. -/
def Grid.toJson (grid : Grid) : Json :=
  .object ([
    ("start", .int grid.start.epoch.toInt),
    ("end", .int grid.stop.epoch.toInt),
    ("intervalISO", match grid.step with
      | some step => .string step.iso8601
      | none => .null),
    ("interval", .string grid.label)]
  ++ (grid.zone.map fun zone => ("timeZone", .string zone)).toList
  ++ [("units", match grid.unit with
      | some unit => .string unit.name
      | none => .null)])

namespace EntryContext

/-- Writes one more series behind those that are written. -/
def encodeNext (ctx : EntryContext) (written : Draft × List SeriesOutcome)
    (series : SeriesName × List Strand)
    : Except Misuse (Draft × List SeriesOutcome) :=
  (ctx.encodeSeries series.1 series.2 written.1).map fun (next, outcome) =>
    (next, written.2 ++ [outcome])

/-- Writes one series for itself. -/
def encodeAlone (ctx : EntryContext) (series : SeriesName × List Strand)
    : Except Misuse (String × SeriesOutcome) :=
  (ctx.encodeSeries series.1 series.2 (.start .insideArray)).map fun (alone, outcome) =>
    (alone.text, outcome)

/-- Inserts what a series wrote for itself, unless that is nothing. -/
def splicedTokens (text : String) : List Token :=
  if text.isEmpty then [] else [.raw text]

/-- Writes all series in order, and keeps what they reveal. -/
def encodeData (ctx : EntryContext) (series : List (SeriesName × List Strand)) (draft : Draft)
    : Except Misuse (Draft × List SeriesOutcome) :=
  if ctx.options.splits series.length then do
    let alone ← series.mapM ctx.encodeAlone
    let spliced ← draft.writeAll ((alone.map Prod.fst).flatMap splicedTokens)
    return (spliced, alone.map Prod.snd)
  else series.foldlM ctx.encodeNext (draft, [])

/-- What stands in front of the data. -/
def headTokens (ctx : EntryContext) (source : String) : List Token :=
  [.openObject, .name "source", .string source]
    ++ memberTokens (ctx.grid.map fun grid => ("timeSpecification", grid.toJson)).toList
    ++ [.name "data", .openArray]

/-- What stands behind the data. -/
def tailTokens (nameSpace : Option String) : List Token :=
  .closeArray :: memberTokens (nameSpace.map fun text => ("namespace", .string text)).toList
    ++ [.closeObject]

/-- The text of a result, under the first namespace that its series reveal. -/
def encodeResult (ctx : EntryContext) (source : String) (series : List (SeriesName × List Strand))
    : Except Misuse (String × List SeriesOutcome) := do
  let opened ← (Draft.start .root).writeAll (ctx.headTokens source)
  let (data, outcomes) ← ctx.encodeData series opened
  let closed ← data.writeAll (tailTokens (outcomes.findSome? SeriesOutcome.nameSpace))
  return (closed.text, outcomes)

end EntryContext

namespace QueryResult

/-- Renders a result whose identities are resolved, one for each series in order. -/
def render (result : QueryResult) (ids : List SeriesName) (start stop : Timestamp)
    (options : Options) : Except DeliveryError RenderedResult :=
  if ids.length ≠ result.series.length then
    .error (.invalid (.idCount ids.length result.series.length result.source))
  else
    let ctx := EntryContext.ofResult result start stop options
    match ctx.encodeResult result.source (ids.zip (result.series.map Series.strands)) with
    | .ok (text, outcomes) =>
      .ok ⟨result.source, text, outcomes.countP SeriesOutcome.wroteValues⟩
    | .error cause => .error (.serialization result.source (.misuse cause))

end QueryResult

end SeriesWire
