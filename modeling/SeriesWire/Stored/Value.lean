import SeriesWire.Series.Value
import SeriesWire.Stored.Identity

/-! The stored form of values. -/

namespace SeriesWire

open Json

/-- An integer of 64 bits is integral, every other number a double. -/
def Number.decoder : Decoder Number
  | _, .number n => n.quantity?.map fun
    | .int value =>
      match narrow64 value with
      | .ok value => .int value
      | .error _ => .double (.ofInt value)
    | .double value => .double value
  | _, _ => none

/-- A missing value is a gap. -/
def Sample.decoder {α : Type} (value : Decoder α) : Decoder (Sample α) := fun depth node => do
  let record ← Record.of? ["timestamp", "value"] depth node
  return {
    time := ← record.required "timestamp" Timestamp.decoder
    value := ← record.optional "value" value }

def Sample.toJson {α : Type} (value : α → Json) (sample : Sample α) : Json :=
  .object [("timestamp", sample.time.toJson), ("value", orNull value sample.value)]

def Summary.decoder : Decoder Summary := fun depth node => do
  let record ← Record.of? ["values"] depth node
  return ⟨← record.required "values" (.int32Map Number.decoder)⟩

def Summary.toJson (summary : Summary) : Json :=
  .object [("values", mapOf (fun id => s!"{id}") Number.toJson summary.values)]

def Cells.decoder : Decoder Cells :=
  .alternative fun
    | "integer" => some fun depth node => (Decoder.list .int64 depth node).map .ints
    | "float" => some fun depth node => (Decoder.list .double depth node).map .doubles
    | _ => none

def Cells.toJson : Cells → Json
  | .ints values => .object [("integer", listOf (fun value => .int value.toInt) values)]
  | .doubles values => .object [("float", listOf (fun value => .scalar (.double value)) values)]

def DenseArray.decoder : Decoder DenseArray := fun depth node => do
  let record ← Record.of? ["offset", "end", "values"] depth node
  return {
    offset := ← record.required "offset" .size
    stop := ← record.required "end" .size
    cells := ← record.required "values" Cells.decoder }

def DenseArray.toJson (array : DenseArray) : Json :=
  .object [("offset", .int array.offset), ("end", .int array.stop), ("values", array.cells.toJson)]

def Status.decoder : Decoder Status := fun depth node => do
  let record ← Record.of? ["status_code", "status_code_array", "last_update_time",
    "timestamp_array", "status_type", "message", "application"] depth node
  return {
    code := ← record.required "status_code" .int8
    codes := ← record.defaulted "status_code_array" none (.nullable (.list .int8))
    updated := ← record.required "last_update_time" Timestamp.decoder
    times := ← record.defaulted "timestamp_array" none (.nullable (.list Timestamp.decoder))
    kind := ← record.required "status_type" .int8
    message := ← record.defaulted "message" "" .string
    application := ← record.defaulted "application" "" .string }

def Status.toJson (status : Status) : Json :=
  .object [
    ("status_code", .int status.code.toInt),
    ("status_code_array", orNull (listOf fun (code : Int8) => .int code.toInt) status.codes),
    ("last_update_time", status.updated.toJson),
    ("timestamp_array", orNull (listOf Timestamp.toJson) status.times),
    ("status_type", .int status.kind.toInt),
    ("message", .string status.message),
    ("application", .string status.application)]

def Event.decoder : Decoder Event := fun depth node => do
  let record ← Record.of? ["namespace", "source", "title", "message", "priority", "timestamp",
    "end_timestamp", "user_id", "ongoing", "event_id", "parent_id", "child_id",
    "additional_props"] depth node
  return {
    nameSpace := ← record.required "namespace" .string
    source := ← record.required "source" .string
    title := ← record.required "title" .string
    message := ← record.required "message" .string
    priority := ← record.required "priority" .string
    time := ← record.required "timestamp" Timestamp.decoder
    stop := ← record.required "end_timestamp" Timestamp.decoder
    user := ← record.required "user_id" .string
    ongoing := ← record.required "ongoing" .bool
    id := ← record.required "event_id" .string
    parents := ← record.defaulted "parent_id" none (.nullable (.list .string))
    children := ← record.defaulted "child_id" none (.nullable (.list .string))
    properties := ← record.defaulted "additional_props" none (.nullable (.stringMap .value)) }

def Event.toJson (event : Event) : Json :=
  .object [
    ("namespace", .string event.nameSpace),
    ("source", .string event.source),
    ("title", .string event.title),
    ("message", .string event.message),
    ("priority", .string event.priority),
    ("timestamp", event.time.toJson),
    ("end_timestamp", event.stop.toJson),
    ("user_id", .string event.user),
    ("ongoing", .bool event.ongoing),
    ("event_id", .string event.id),
    ("parent_id", orNull (listOf Json.string) event.parents),
    ("child_id", orNull (listOf Json.string) event.children),
    ("additional_props", orNull (mapOf (fun name => name) fun value => value) event.properties)]

end SeriesWire
