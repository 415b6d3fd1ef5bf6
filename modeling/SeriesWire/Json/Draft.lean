import SeriesWire.Json.Cursor

/-! JSON text that grows in memory, where nothing is ever refused. -/

namespace SeriesWire.Json

structure Draft where
  text : String
  cursor : Cursor
  deriving DecidableEq, Repr

namespace Draft

/-- An empty text at the given cursor. -/
def start (cursor : Cursor) : Draft :=
  ⟨"", cursor⟩

def write (draft : Draft) (token : Token) : Except Misuse Draft :=
  (draft.cursor.plan token).map fun plan => ⟨draft.text ++ plan.text, plan.landing⟩

/-- Writes tokens up to the first misplaced one. -/
def writeAll (draft : Draft) : List Token → Except Misuse Draft
  | [] => .ok draft
  | token :: rest =>
    match draft.write token with
    | .ok next => next.writeAll rest
    | .error misuse => .error misuse

end Draft

/-- The text that tokens make at a cursor. -/
def draft (cursor : Cursor) (tokens : List Token) : Except Misuse String :=
  ((Draft.start cursor).writeAll tokens).map Draft.text

end SeriesWire.Json
