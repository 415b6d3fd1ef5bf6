import SeriesWire.Delivery.Error

/-! The document around the results of a query.
It is opened by the first result and closed once, which flushes its stream. An opening or closing
that breaks off leaves it in the state it was in.
-/

namespace SeriesWire

open Json

inductive DocumentState where
  | empty
  | opened
  | closed
  deriving DecidableEq, Repr

def DocumentState.name : DocumentState → String
  | .empty => "Empty"
  | .opened => "Opened"
  | .closed => "Closed"

structure Document where
  writer : Writer
  state : DocumentState

namespace Document

def start (stream : Stream) : Document :=
  ⟨.start stream .root, .empty⟩

/-- The name under which failures of the document itself are reported. -/
def place : String :=
  "document"

/-- Writes tokens on behalf of a place and moves to a state if that succeeds. -/
def writeAs (document : Document) (place : String) (tokens : List Token) (state : DocumentState)
    : Document × Except DeliveryError Unit :=
  match document.writer.writeAll tokens with
  | (writer, .ok ()) => (⟨writer, state⟩, .ok ())
  | (writer, .error fault) => (⟨writer, document.state⟩, .error (.serialization place fault))

def openingTokens : List Token :=
  [.openObject, .name "results", .openArray]

/-- Opens the document unless it is open; a closed one stays closed. -/
def ensureOpen (document : Document) (place : String) : Document × Except DeliveryError Unit :=
  match document.state with
  | .empty => document.writeAs place openingTokens .opened
  | .opened => (document, .ok ())
  | .closed => (document, .error .closed)

/-- Appends a result that is already written. Failures are reported under its source. -/
def writeResult (document : Document) (source text : String)
    : Document × Except DeliveryError Unit :=
  match document.ensureOpen source with
  | (document, .ok ()) => document.writeAs source [.raw text] document.state
  | (document, .error cause) => (document, .error cause)

/-- The end of the results, the log lines if there are to be any, and the end of the document. -/
def closingTokens (logs : Option (List String)) : List Token :=
  .closeArray
    :: memberTokens (logs.map fun lines => ("log", .array (lines.map .string))).toList
    ++ [.closeObject]

/-- Ends the document and flushes its stream. It is closed only once both succeeded. -/
def finish (document : Document) (logs : Option (List String))
    : Document × Except DeliveryError Unit :=
  match document.writeAs place (closingTokens logs) document.state with
  | (document, .error cause) => (document, .error cause)
  | (document, .ok ()) =>
    match document.writer.flush with
    | .error fault => (document, .error (.serialization place fault))
    | .ok () => ({ document with state := .closed }, .ok ())

/-- Closes the document, opening it first if nothing was written yet. -/
def close (document : Document) (logs : Option (List String))
    : Document × Except DeliveryError Unit :=
  match document.ensureOpen place with
  | (document, .ok ()) => document.finish logs
  | (document, .error cause) => (document, .error cause)

end Document

end SeriesWire
