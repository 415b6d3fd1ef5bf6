import SeriesWire.Json.Scalar

/-! JSON texts are written token by token, and JSON trees are sequences of tokens.
A raw token carries text that was written elsewhere.
-/

namespace SeriesWire

namespace Json

inductive Token where
  | openObject
  | closeObject
  | openArray
  | closeArray
  | name (name : String)
  | scalar (value : Scalar)
  /-- A value that is already written. -/
  | raw (text : String)
  /-- Members of an object that are already written, without the braces. -/
  | rawMembers (text : String)
  deriving DecidableEq, Repr

def Token.string (value : String) : Token :=
  .scalar (.string value)

def Token.int (value : Int) : Token :=
  .scalar (.int value)

end Json

/-- A JSON value. Members are kept in the order of writing, and a name may occur twice. -/
inductive Json where
  | scalar (value : Json.Scalar)
  | array (items : List Json)
  | object (members : List (String × Json))

namespace Json

instance : Inhabited Json :=
  ⟨.scalar .null⟩

def null : Json :=
  .scalar .null

def bool (value : Bool) : Json :=
  .scalar (.bool value)

def int (value : Int) : Json :=
  .scalar (.int value)

def string (value : String) : Json :=
  .scalar (.string value)

mutual

/-- The tokens that write a value. -/
def tokens : Json → List Token
  | .scalar value => [.scalar value]
  | .array items => .openArray :: (itemTokens items ++ [.closeArray])
  | .object members => .openObject :: (memberTokens members ++ [.closeObject])

def itemTokens : List Json → List Token
  | [] => []
  | item :: rest => tokens item ++ itemTokens rest

def memberTokens : List (String × Json) → List Token
  | [] => []
  | (name, value) :: rest => .name name :: (tokens value ++ memberTokens rest)

end

mutual

/-- The compact text of a value. -/
def text : Json → String
  | .scalar value => value.text
  | .array items => "[" ++ String.intercalate "," (itemTexts items) ++ "]"
  | .object members => "\x7b" ++ String.intercalate "," (memberTexts members) ++ "\x7d"

def itemTexts : List Json → List String
  | [] => []
  | item :: rest => text item :: itemTexts rest

def memberTexts : List (String × Json) → List String
  | [] => []
  | (name, value) :: rest => (quoted name ++ ":" ++ text value) :: memberTexts rest

end

end Json

end SeriesWire
