import SeriesWire.Instant.Timestamp
import SeriesWire.Json.Token
import SeriesWire.SortedMap

/-! The values that a series may carry. -/

namespace SeriesWire

/-- A number, either integral or floating point. -/
inductive Number where
  | int (value : Int64)
  | double (value : Binary64)
  deriving DecidableEq, Repr

def Number.toJson : Number → Json
  | .int value => .int value.toInt
  | .double value => .scalar (.double value)

/-- An optional number; a gap is null. -/
def Number.toJson? : Option Number → Json
  | some number => number.toJson
  | none => .null

/-- A value at an instant, or a gap. -/
structure Sample (α : Type) where
  time : Timestamp
  value : Option α
  deriving DecidableEq, Repr

/-- Several aggregations of the same values, by aggregation id. -/
structure Summary where
  values : SortedMap Int32 Number
  deriving DecidableEq

/-- The numbers behind an array value. -/
inductive Cells where
  | ints (values : List Int64)
  | doubles (values : List Binary64)
  deriving DecidableEq, Repr

def Cells.get? : Cells → Nat → Option Number
  | .ints values, index => values[index]?.map .int
  | .doubles values, index => values[index]?.map .double

def Cells.size : Cells → Nat
  | .ints values => values.length
  | .doubles values => values.length

/-- Numbers aligned to a grid; only the indices from `offset` to before `stop` hold data. -/
structure DenseArray where
  offset : Nat
  stop : Nat
  cells : Cells
  deriving DecidableEq, Repr

/-- All of the given cells. -/
def DenseArray.ofCells (cells : Cells) : DenseArray :=
  ⟨0, cells.size, cells⟩

/-- The numbers of the index range; past the cells there are gaps. -/
def DenseArray.range (array : DenseArray) : List (Option Number) :=
  (List.range' array.offset (array.stop - array.offset)).map array.cells.get?

/-- The health of an application. -/
structure Status where
  code : Int8
  codes : Option (List Int8)
  updated : Timestamp
  times : Option (List Timestamp)
  kind : Int8
  message : String
  application : String
  deriving DecidableEq, Repr

/-- A discrete event, such as a deployment. -/
structure Event where
  nameSpace : String
  source : String
  title : String
  message : String
  priority : String
  time : Timestamp
  stop : Timestamp
  user : String
  ongoing : Bool
  id : String
  parents : Option (List String)
  children : Option (List String)
  properties : Option (SortedMap String Json)

end SeriesWire
