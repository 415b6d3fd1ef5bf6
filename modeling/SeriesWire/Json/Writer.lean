import SeriesWire.Json.Cursor

/-! JSON text written to a stream that may break.
A broken stream has accepted the bytes that fitted and refuses every byte after them.
-/

namespace SeriesWire

/-- What a stream that breaks still does: it takes so many more bytes, and what it took can be
flushed or not.
-/
structure Limit where
  bytes : Nat
  flushes : Bool
  deriving DecidableEq, Repr

/-- A stream of bytes. Without a limit it has room for everything and never breaks. -/
structure Stream where
  accepted : ByteArray
  room : Option Limit

namespace Stream

/-- A stream that never breaks. -/
def unlimited : Stream :=
  ⟨.empty, none⟩

/-- A stream that breaks behind so many bytes and flushes those. -/
def limited (bytes : Nat) : Stream :=
  ⟨.empty, some ⟨bytes, true⟩⟩

/-- Offers text and tells whether all of it was accepted; otherwise as much as fitted was. -/
def offer (stream : Stream) (text : String) : Stream × Bool :=
  let bytes := text.toUTF8
  match stream.room with
  | none => ({ stream with accepted := stream.accepted ++ bytes }, true)
  | some room =>
    if bytes.size ≤ room.bytes then
      (⟨stream.accepted ++ bytes, some { room with bytes := room.bytes - bytes.size }⟩, true)
    else (⟨stream.accepted ++ bytes.extract 0 room.bytes, some { room with bytes := 0 }⟩, false)

/-- Whether a flush succeeds. It accepts no bytes. -/
def flushes (stream : Stream) : Bool :=
  stream.room.all Limit.flushes

/-- Accepted bytes are compared as lists, which is faster to decide than as arrays. -/
theorem eq_of_toList_eq {accepted expected : ByteArray}
    (h : accepted.data.toList = expected.data.toList)
    : accepted = expected :=
  ByteArray.ext (Array.toList_inj.mp h)

end Stream

namespace Json

/-- Why a token was not written. -/
inductive Fault where
  | misuse (cause : Misuse)
  | broken
  deriving DecidableEq, Repr

def Fault.message : Fault → String
  | .misuse cause => cause.message
  | .broken => "stream closed"

structure Writer where
  stream : Stream
  cursor : Cursor

namespace Writer

/-- At the start of a stream. -/
def start (stream : Stream) (cursor : Cursor) : Writer :=
  ⟨stream, cursor⟩

/-- Offers the pieces in order and stops at the first that is refused. -/
def carryOut (writer : Writer) (landing : Cursor) : List Piece → Writer × Except Fault Unit
  | [] => ({ writer with cursor := landing }, .ok ())
  | piece :: rest =>
    match writer.stream.offer piece.text with
    | (stream, true) => carryOut { writer with stream } landing rest
    | (stream, false) => (⟨stream, piece.refused⟩, .error .broken)

def write (writer : Writer) (token : Token) : Writer × Except Fault Unit :=
  match writer.cursor.plan token with
  | .ok plan => writer.carryOut plan.landing plan.pieces
  | .error cause => (writer, .error (.misuse cause))

/-- Writes tokens up to the first that fails. -/
def writeAll (writer : Writer) : List Token → Writer × Except Fault Unit
  | [] => (writer, .ok ())
  | token :: rest =>
    match writer.write token with
    | (next, .ok ()) => next.writeAll rest
    | (next, .error fault) => (next, .error fault)

theorem writeAll_single (writer : Writer) (token : Token)
    : writer.writeAll [token] = writer.write token := by
  rw [writeAll]
  rcases writer.write token with ⟨next, _ | _⟩ <;> rfl

/-- Flushes the stream, wherever the writer stands. -/
def flush (writer : Writer) : Except Fault Unit :=
  if writer.stream.flushes then .ok () else .error .broken

end Writer

end Json

end SeriesWire
