import SeriesWire.Entry.Context

/-! The members that values add to the entry of their series, kind by kind: the columns and rows of
summaries, and the fields of statuses and events.
-/

namespace SeriesWire

/-- Members of an object in the order of writing. -/
abbrev Members :=
  List (String × Json)

namespace EntryContext

/-- The aggregation ids of the first value that is not a gap; the others are expected to have the
same. -/
def aggregations (values : List (Sample Summary)) : List Int32 :=
  match values.findSome? Sample.value with
  | some summary => summary.values.keys
  | none => []

/-- The value of one aggregation; a gap if it is missing. -/
def pick (aggregation : Option Int32) (sample : Sample Summary) : Option Number := do
  (← sample.value).values.get? (← aggregation)

/-- The values of one sample under the given aggregations. -/
def summaryRow (ids : List Int32) (sample : Sample Summary) : Json :=
  match sample.value with
  | none => .null
  | some summary => .array (ids.map fun id => Number.toJson? (summary.values.get? id))

def aggregationName (ctx : EntryContext) (id : Int32) : Json :=
  match ctx.rollup.bind fun rollup => rollup.names.get? id with
  | some name => .string name
  | none => .null

/-- Every aggregation, with a row for each sample. -/
def namedSummary (ctx : EntryContext) (values : List (Sample Summary)) (ids : List Int32) : Json :=
  let row (sample : Sample Summary) : Json :=
    let cells := summaryRow ids sample
    if ctx.grid.isSome then cells else .object [(ctx.key sample.time, cells)]
  .object [
    ("aggregations", .array (ids.map ctx.aggregationName)),
    ("data", .array (values.map row))]

end EntryContext

/-- The fields of a status; lists replace the single code and time. -/
def Status.members (status : Status) : Members :=
  [ match status.codes with
    | some codes => ("statusCodeArray", .array (codes.map fun code => .int code.toInt))
    | none => ("statusCode", .int status.code.toInt),
    match status.times with
    | some times => ("timestampArray", .array (times.map fun time => .int time.epoch.toInt))
    | none => ("lastUpdateTime", .int status.updated.millis.toInt),
    ("statusType", .int status.kind.toInt),
    ("message", .string status.message),
    ("application", .string status.application)]

/-- A property as a string: strings as they are, other values as their compact text. -/
def propertyText : Json → String
  | .scalar (.string value) => value
  | value => value.text

/-- The fields of an event. Its times are strings of seconds. -/
def Event.members (event : Event) : Members :=
  let texts (ids : List String) : Json := .array (ids.map .string)
  [ ("namespace", .string event.nameSpace),
    ("source", .string event.source),
    ("title", .string event.title),
    ("message", .string event.message),
    ("priority", .string event.priority),
    ("timestamp", .string s!"{event.time.epoch}"),
    ("endTimestamp", .string s!"{event.stop.epoch}"),
    ("userId", .string event.user),
    ("ongoing", .bool event.ongoing),
    ("eventId", .string event.id)]
  ++ (event.parents.map fun ids => ("parentId", texts ids)).toList
  ++ (event.children.map fun ids => ("childId", texts ids)).toList
  ++ (event.properties.map fun properties =>
      ("additionalProps", .object (properties.entries.map fun (name, value) =>
        (name, .string (propertyText value))))).toList

end SeriesWire
