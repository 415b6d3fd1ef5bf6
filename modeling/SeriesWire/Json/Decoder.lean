import SeriesWire.Json.Reader
import SeriesWire.Json.Token
import SeriesWire.Number.FixedWidth
import SeriesWire.SortedMap

/-! Typed readings of JSON values.
A decoder is given the number of levels it may still open. Members that nobody asks for are never
looked into, so nothing but their grammar is checked.
-/

namespace SeriesWire.Json

/-- Reads a value that may open `depth` levels of arrays and objects. -/
abbrev Decoder (α : Type) :=
  (depth : Nat) → Node → Option α

namespace Decoder

variable {α β : Type}

def bool : Decoder Bool
  | _, .bool value => some value
  | _, _ => none

def string : Decoder String
  | _, .string letters => (Letter.decode? letters).map String.ofList
  | _, _ => none

/-- An integer within bounds. A number with a fraction or an exponent is none, whatever its
value. -/
def int (least greatest : Int) : Decoder Int
  | _, .number n =>
    match n.quantity? with
    | some (.int value) => if least ≤ value ∧ value ≤ greatest then some value else none
    | _ => none
  | _, _ => none

def int64 : Decoder Int64 := fun depth node =>
  (int Int64.minValue.toInt Int64.maxValue.toInt depth node).map Int64.ofInt

def int32 : Decoder Int32 := fun depth node =>
  (int Int32.minValue.toInt Int32.maxValue.toInt depth node).map Int32.ofInt

def int8 : Decoder Int8 := fun depth node =>
  (int Int8.minValue.toInt Int8.maxValue.toInt depth node).map Int8.ofInt

def byte : Decoder UInt8 := fun depth node =>
  (int 0 255 depth node).map fun value => UInt8.ofNat value.toNat

/-- A count or an index below `2 ^ 64`. -/
def size : Decoder Nat := fun depth node =>
  (int 0 18446744073709551615 depth node).map Int.toNat

/-- A double; an integer is taken to the nearest one. -/
def double : Decoder Binary64
  | _, .number n => n.quantity?.map fun
    | .int value => .ofInt value
    | .double value => value
  | _, _ => none

def nullable (decoder : Decoder α) : Decoder (Option α)
  | _, .null => some none
  | depth, node => (decoder depth node).map some

def list (decoder : Decoder α) : Decoder (List α)
  | depth + 1, .array items => items.mapM (decoder depth)
  | _, _ => none

def pair (first : Decoder α) (second : Decoder β) : Decoder (α × β)
  | depth + 1, .array [a, b] => do return (← first depth a, ← second depth b)
  | _, _ => none

/-- Reads an object with any names; a later member replaces an earlier one of its name. -/
def map {κ : Type} [Ord κ] [Std.TransOrd κ] (key : List Letter → Option κ) (decoder : Decoder α)
    : Decoder (SortedMap κ α)
  | depth + 1, .object members => do
    let entries ← members.mapM fun (letters, node) => do
      return (← key letters, ← decoder depth node)
    return .ofList entries
  | _, _ => none

/-- A name as a string. -/
def stringKey (letters : List Letter) : Option String :=
  (Letter.decode? letters).map String.ofList

/-- A name that is an integer of 32 bits, written without escapes as JSON writes integers. -/
def int32Key (letters : List Letter) : Option Int32 := do
  let chars ← letters.mapM fun
    | .plain c => some c
    | .escaped _ => none
  match (← Numeral.ofChars? chars).quantity? with
  | some (.int value) => (narrow32 value).toOption
  | _ => none

def stringMap (decoder : Decoder α) : Decoder (SortedMap String α) :=
  map stringKey decoder

def int32Map (decoder : Decoder α) : Decoder (SortedMap Int32 α) :=
  map int32Key decoder

/-- One of several names, bare or as the only member of an object with the value null. -/
def choice (named? : String → Option α) : Decoder α
  | _, .string letters => (stringKey letters).bind named?
  | _ + 1, .object [(letters, .null)] => (stringKey letters).bind named?
  | _, _ => none

/-- An object whose only member is named for the alternative that its value is read as. -/
def alternative (decoder? : String → Option (Decoder α)) : Decoder α
  | depth + 1, .object [(letters, node)] => do (← decoder? (← stringKey letters)) depth node
  | _, _ => none

mutual

/-- Reads any value; objects come out in the order of their names. -/
def value : Decoder Json
  | _, .null => some .null
  | _, .bool value => some (.bool value)
  | _, .number n => n.quantity?.map fun
    | .int value => .scalar (.int value)
    | .double value => .scalar (.double value)
  | _, .string letters => (stringKey letters).map Json.string
  | depth + 1, .array items => (values depth items).map Json.array
  | depth + 1, .object members =>
    (memberValues depth members).map fun entries =>
      .object (SortedMap.ofList entries).entries
  | 0, _ => none

def values (depth : Nat) : List Node → Option (List Json)
  | [] => some []
  | item :: rest => do return (← value depth item) :: (← values depth rest)

def memberValues (depth : Nat) : List (List Letter × Node) → Option (List (String × Json))
  | [] => some []
  | (letters, node) :: rest => do
    return (← stringKey letters, ← value depth node) :: (← memberValues depth rest)

end

end Decoder

/-- The members of a record that were given, with the levels that their values may open. A record
may also be written as the list of its members in order; then none is skipped. -/
structure Record where
  given : List (String × Node)
  inOrder : Bool
  depth : Nat

namespace Record

/-- The members of a record with the given names. Others are ignored, but one of its own must not
be written twice, and a list must not have more than there are. -/
def of? (names : List String) : Decoder Record
  | depth + 1, .object members => do
    let named ← members.mapM fun (letters, node) => do return (← Decoder.stringKey letters, node)
    let given := named.filter fun member => names.contains member.1
    if (given.map Prod.fst).Nodup then some ⟨given, false, depth⟩ else none
  | depth + 1, .array items =>
    if items.length ≤ names.length then some ⟨names.zip items, true, depth⟩ else none
  | _, _ => none

variable {α : Type}

def node? (record : Record) (name : String) : Option Node :=
  record.given.lookup name

/-- A member that must be given. -/
def required (record : Record) (name : String) (decoder : Decoder α) : Option α :=
  (record.node? name).bind (decoder record.depth)

/-- A member that may be null, or missing from an object. -/
def optional (record : Record) (name : String) (decoder : Decoder α) : Option (Option α) :=
  match record.node? name with
  | some node => decoder.nullable record.depth node
  | none => if record.inOrder then none else some none

/-- A member that may be missing. -/
def defaulted (record : Record) (name : String) (default : α) (decoder : Decoder α) : Option α :=
  match record.node? name with
  | some node => decoder record.depth node
  | none => some default

end Record

/-- The levels that a whole text may open. -/
def nestingLimit : Nat :=
  127

/-- Reads a whole text. -/
def decode? {α : Type} (decoder : Decoder α) (text : String) : Option α :=
  (read? text).bind (decoder nestingLimit)

end SeriesWire.Json
