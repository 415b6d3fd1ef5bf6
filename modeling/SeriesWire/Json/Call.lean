import SeriesWire.Json.Writer

/-! Calls of a writer, made one after the other.
A call that fails is answered with the fault, and the caller may go on.
-/

namespace SeriesWire.Json

/-- What a caller may ask of a writer. A member is a name with what opens or is its value, written
in one go. To flush the stream writes nothing.
-/
inductive Call where
  | one (token : Token)
  | member (name : String) (value : Token)
  | flush
  deriving DecidableEq, Repr

def Call.tokens : Call → List Token
  | .one token => [token]
  | .member name value => [.name name, value]
  | .flush => []

namespace Writer

def call (writer : Writer) : Call → Writer × Except Fault Unit
  | .one token => writer.write token
  | .member name value => writer.writeAll [.name name, value]
  | .flush => (writer, writer.flush)

/-- The answers to calls made one after the other, whether they fail or not. -/
def run (writer : Writer) : List Call → Writer × List (Except Fault Unit)
  | [] => (writer, [])
  | call :: rest =>
    let (next, answer) := writer.call call
    let (last, answers) := next.run rest
    (last, answer :: answers)

end Writer

end SeriesWire.Json
