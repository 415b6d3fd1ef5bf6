import SeriesWire.Identity.Name
import SeriesWire.Instant.Timestamp
import SeriesWire.Json.Decoder

/-! The stored form of timestamps and identities. -/

namespace SeriesWire

open Json

/-- A list of values in their stored form. -/
def Json.listOf {α : Type} (toJson : α → Json) (values : List α) : Json :=
  .array (values.map toJson)

/-- A value in its stored form, or null. -/
def Json.orNull {α : Type} (toJson : α → Json) : Option α → Json
  | some value => toJson value
  | none => .null

/-- A map of values in their stored form. -/
def Json.mapOf {κ α : Type} [Ord κ] (name : κ → String) (toJson : α → Json)
    (map : SortedMap κ α) : Json :=
  .object (map.entries.map fun (key, value) => (name key, toJson value))

/-- Nanoseconds are taken as they are, even beyond a second. -/
def Timestamp.decoder : Decoder Timestamp := fun depth node => do
  let record ← Record.of? ["epoch", "nanos"] depth node
  return {
    epoch := ← record.required "epoch" .int64
    nanos := ← record.defaulted "nanos" 0 .int64 }

def Timestamp.toJson (t : Timestamp) : Json :=
  .object [("epoch", .int t.epoch.toInt), ("nanos", .int t.nanos.toInt)]

def TimeUnit.decoder : Decoder TimeUnit :=
  .choice TimeUnit.ofKeyword?

def TimeUnit.toJson (unit : TimeUnit) : Json :=
  .string unit.keyword

def IdForm.decoder : Decoder IdForm :=
  .choice IdForm.ofKeyword?

def IdForm.toJson (form : IdForm) : Json :=
  .string form.keyword

def SeriesName.decoder : Decoder SeriesName := fun depth node => do
  let record ← Record.of? ["metric", "tags", "aggregated_tags"] depth node
  return {
    metric := ← record.required "metric" .string
    tags := ← record.defaulted "tags" .empty (.stringMap .string)
    aggregated := ← record.defaulted "aggregated_tags" [] (.list .string) }

def SeriesName.toJson (id : SeriesName) : Json :=
  .object [
    ("metric", .string id.metric),
    ("tags", mapOf (fun tag => tag) Json.string id.tags),
    ("aggregated_tags", listOf Json.string id.aggregated)]

def EncodedId.decoder : Decoder EncodedId := fun depth node => do
  let record ← Record.of? ["bytes"] depth node
  return ⟨← record.required "bytes" (.list .byte)⟩

def EncodedId.toJson (id : EncodedId) : Json :=
  .object [("bytes", listOf (fun byte => .int byte.toNat) id.bytes)]

def SeriesId.decoder : Decoder SeriesId :=
  .alternative fun
    | "string" => some fun depth node => (SeriesName.decoder depth node).map .named
    | "byte" => some fun depth node => (EncodedId.decoder depth node).map .encoded
    | _ => none

def SeriesId.toJson : SeriesId → Json
  | .named id => .object [("string", id.toJson)]
  | .encoded id => .object [("byte", id.toJson)]

end SeriesWire
