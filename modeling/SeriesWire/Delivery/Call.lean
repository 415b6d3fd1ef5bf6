import SeriesWire.Delivery.Document
import SeriesWire.Json.Call

/-! Calls of a document, made one after the other.
Besides its own calls, a document hands out its writer, which stands among the results.
-/

namespace SeriesWire

open Json

/-- What a caller may ask of a document. -/
inductive DocumentCall where
  | state
  /-- Opens the document unless it is open, and makes calls of its writer. -/
  | results (calls : List Call)
  | writeResult (source text : String)
  | close (logs : Option (List String))
  deriving DecidableEq, Repr

inductive DocumentReply where
  | state (state : DocumentState)
  | results (answers : List (Except Fault Unit))
  | done
  | failed (cause : DeliveryError)

namespace Document

/-- Makes calls of the writer among the results. -/
def writeCalls (document : Document) (calls : List Call)
    : Document × Except DeliveryError (List (Except Fault Unit)) :=
  match document.ensureOpen place with
  | (document, .ok ()) =>
    let (writer, answers) := document.writer.run calls
    ({ document with writer }, .ok answers)
  | (document, .error cause) => (document, .error cause)

def replyOf {α : Type} (done : α → DocumentReply) : Except DeliveryError α → DocumentReply
  | .ok answer => done answer
  | .error cause => .failed cause

def step (document : Document) : DocumentCall → Document × DocumentReply
  | .state => (document, .state document.state)
  | .results calls => (document.writeCalls calls).map id (replyOf .results)
  | .writeResult source text =>
    (document.writeResult source text).map id (replyOf fun _ => .done)
  | .close logs => (document.close logs).map id (replyOf fun _ => .done)

/-- The replies to calls made one after the other. -/
def run (document : Document) : List DocumentCall → Document × List DocumentReply
  | [] => (document, [])
  | call :: rest =>
    let (next, reply) := document.step call
    let (last, replies) := next.run rest
    (last, reply :: replies)

end Document

end SeriesWire
