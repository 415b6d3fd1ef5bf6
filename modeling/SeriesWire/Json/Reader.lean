import SeriesWire.Json.Lexeme

/-! JSON texts as trees of what is written.
The reader keeps the open arrays and objects on a stack and knows after every element what may come
next.
-/

namespace SeriesWire.Json

/-- A value as written. -/
inductive Node where
  | null
  | bool (value : Bool)
  | number (value : Numeral)
  | string (letters : List Letter)
  | array (items : List Node)
  | object (members : List (List Letter × Node))

/-- An open array or object with what it holds so far, the latest first. -/
inductive Frame where
  | array (items : List Node)
  | object (members : List (List Letter × Node)) (name : List Letter)

/-- What may come next. -/
inductive Expectation where
  | value
  | valueOrClose
  | name
  | nameOrClose
  | colon
  | commaOrClose
  | nothing (result : Node)

structure Reading where
  frames : List Frame
  next : Expectation

namespace Reading

def start : Reading :=
  ⟨[], .value⟩

/-- Puts a complete value where it belongs. -/
def complete (frames : List Frame) (node : Node) : Reading :=
  match frames with
  | [] => ⟨[], .nothing node⟩
  | .array items :: outer => ⟨.array (node :: items) :: outer, .commaOrClose⟩
  | .object members name :: outer => ⟨.object ((name, node) :: members) [] :: outer, .commaOrClose⟩

/-- Takes the first element of a value. -/
def value (frames : List Frame) : Lexeme → Option Reading
  | .null => some (complete frames .null)
  | .bool value => some (complete frames (.bool value))
  | .number value => some (complete frames (.number value))
  | .string letters => some (complete frames (.string letters))
  | .openArray => some ⟨.array [] :: frames, .valueOrClose⟩
  | .openObject => some ⟨.object [] [] :: frames, .nameOrClose⟩
  | _ => none

/-- Ends the innermost array or object by its own bracket. -/
def close (frames : List Frame) (lexeme : Lexeme) : Option Reading :=
  match frames, lexeme with
  | .array items :: outer, .closeArray => some (complete outer (.array items.reverse))
  | .object members _ :: outer, .closeObject => some (complete outer (.object members.reverse))
  | _, _ => none

/-- Takes the name of a member. -/
def name (frames : List Frame) (lexeme : Lexeme) : Option Reading :=
  match frames, lexeme with
  | .object members _ :: outer, .string letters => some ⟨.object members letters :: outer, .colon⟩
  | _, _ => none

/-- Takes the comma between two values of an array or two members of an object. -/
def comma (frames : List Frame) : Option Reading :=
  match frames with
  | .array _ :: _ => some ⟨frames, .value⟩
  | .object .. :: _ => some ⟨frames, .name⟩
  | [] => none

def step (reading : Reading) (lexeme : Lexeme) : Option Reading :=
  let frames := reading.frames
  match reading.next with
  | .value => value frames lexeme
  | .valueOrClose => (close frames lexeme).orElse fun _ => value frames lexeme
  | .name => name frames lexeme
  | .nameOrClose => (close frames lexeme).orElse fun _ => name frames lexeme
  | .colon => if lexeme = .colon then some ⟨frames, .value⟩ else none
  | .commaOrClose => if lexeme = .comma then comma frames else close frames lexeme
  | .nothing _ => none

end Reading

/-- The value that a text writes, blanks around it allowed. -/
def read? (text : String) : Option Node := do
  let reading ← (← lexemes? text).foldlM Reading.step Reading.start
  match reading.next with
  | .nothing result => some result
  | _ => none

end SeriesWire.Json
