import SeriesWire.Number.DoubleText

/-! JSON values without parts, and the text they are written as. -/

namespace SeriesWire.Json

inductive Scalar where
  | null
  | bool (value : Bool)
  | int (value : Int)
  | double (value : Binary64)
  | string (value : String)
  deriving DecidableEq, Repr

/-- The short escapes, and four hexadecimal digits for the other control characters. -/
def escapeChar (c : Char) : List Char :=
  if c = '"' then ['\\', '"']
  else if c = '\\' then ['\\', '\\']
  else if c = '\x08' then ['\\', 'b']
  else if c = '\x0c' then ['\\', 'f']
  else if c = '\n' then ['\\', 'n']
  else if c = '\r' then ['\\', 'r']
  else if c = '\t' then ['\\', 't']
  else if c.toNat < 32 then '\\' :: 'u' :: (Nat.toDigits 16 c.toNat).leftpad 4 '0'
  else [c]

/-- A string between quotes. -/
def quoted (s : String) : String :=
  String.ofList ('"' :: (s.toList.flatMap escapeChar ++ ['"']))

/-- A finite double as a number. JSON has no other doubles: they are named in a string. -/
def doubleText (x : Binary64) : String :=
  if x.isFinite then DoubleLayout.json.text x
  else if x.isNaN then quoted "NaN"
  else if x.isNegative then quoted "-Infinity"
  else quoted "Infinity"

def Scalar.text : Scalar → String
  | .null => "null"
  | .bool value => if value then "true" else "false"
  | .int value => toString value
  | .double value => doubleText value
  | .string value => quoted value

end SeriesWire.Json
