import SeriesWire.Hash.Key
import SeriesWire.Number.Padded
import SeriesWire.SortedMap

/-! Identities of series: readable ones, and encoded ones that a resolver must turn into readable
ones.
-/

namespace SeriesWire

/-- The two forms in which a series carries its identity. -/
inductive IdForm where
  | string
  | byte
  deriving DecidableEq, Repr

namespace IdForm

def name : IdForm → String
  | .string => "String"
  | .byte => "Byte"

def keyword : IdForm → String
  | .string => "string"
  | .byte => "byte"

def ofKeyword? (text : String) : Option IdForm :=
  [IdForm.string, .byte].find? fun form => form.keyword == text

end IdForm

/-- The readable identity of a series. -/
structure SeriesName where
  metric : String
  tags : SortedMap String String
  aggregated : List String
  deriving DecidableEq

namespace SeriesName

def ofMetric (metric : String) : SeriesName :=
  ⟨metric, .empty, []⟩

/-- The strings that identify a series, in the order in which they are hashed: the metric, every tag
with its value, and the aggregated tags. -/
def parts (id : SeriesName) : List String :=
  id.metric :: (id.tags.entries.flatMap fun (tag, value) => [tag, value]) ++ id.aggregated

/-- The bytes that identify a series. -/
def hashInput (id : SeriesName) : List UInt8 :=
  frame (id.parts.map fun part => part.toUTF8.toList)

/-- The hash by which shards refer to the identity. -/
def hash (id : SeriesName) : UInt64 :=
  hashKey id.hashInput

/-- The metric with its tags in braces. -/
def text (id : SeriesName) : String :=
  id.metric ++ "\x7b"
    ++ String.intercalate "," (id.tags.entries.map fun (tag, value) => tag ++ "=" ++ value)
    ++ "\x7d"

end SeriesName

/-- An encoded identity. -/
structure EncodedId where
  bytes : List UInt8
  deriving DecidableEq, Repr

def EncodedId.text (id : EncodedId) : String :=
  "TimeSeriesByteId(" ++ String.join (id.bytes.map hexByte) ++ ")"

inductive SeriesId where
  | named (name : SeriesName)
  | encoded (id : EncodedId)
  deriving DecidableEq

def SeriesId.form : SeriesId → IdForm
  | .named _ => .string
  | .encoded _ => .byte

end SeriesWire
