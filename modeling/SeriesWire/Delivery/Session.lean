import SeriesWire.Delivery.Document
import SeriesWire.Entry.Context
import SeriesWire.Identity.Lookup
import SeriesWire.Result.Render
import SeriesWire.Result.Resolve
import SeriesWire.Shard.Table

/-! The delivery of one query's results as a document.
Results come whole or as shards, and a query uses one of the two ways: the first success decides.
Calls that fail leave no trace besides what a broken stream has already accepted.
-/

namespace SeriesWire

open Json

/-- How much is logged. Anything but `off` appends the log to the document. -/
inductive LogLevel where
  | off
  | error
  | warn
  | info
  | debug
  | trace
  deriving DecidableEq, Repr

namespace LogLevel

def keyword : LogLevel → String
  | .off => "off"
  | .error => "error"
  | .warn => "warn"
  | .info => "info"
  | .debug => "debug"
  | .trace => "trace"

def ofKeyword? (text : String) : Option LogLevel :=
  [LogLevel.off, .error, .warn, .info, .debug, .trace].find? fun level => level.keyword == text

end LogLevel

/-- The query whose results are delivered. -/
structure Query where
  start : Timestamp
  stop : Timestamp
  logLevel : LogLevel
  logs : List String
  registry : Registry
  resolver : Option Resolver

/-- What has been delivered so far. -/
structure Stats where
  serialized : Nat
  ingested : Nat
  skipped : Nat
  unresolved : Nat
  deriving DecidableEq, Repr

structure Session where
  query : Query
  options : Options
  document : Document
  shards : ShardTable
  /-- A whole result was written. -/
  usedWhole : Bool
  /-- A shard was accepted. -/
  usedShards : Bool
  /-- Completion was asked for. -/
  closing : Bool
  stats : Stats

namespace Session

def start (query : Query) (options : Options) (stream : Stream) : Except DeliveryError Session :=
  if query.stop < query.start then
    .error (.invalid (.reversedWindow query.start.epoch.toInt query.stop.epoch.toInt))
  else
    .ok {
      query, options
      document := .start stream
      shards := .empty
      usedWhole := false
      usedShards := false
      closing := false
      stats := ⟨0, 0, 0, 0⟩ }

/-- The text of a whole result, if whole results are still taken and its identities resolve. -/
def rendered (session : Session) (result : QueryResult) : Except DeliveryError RenderedResult := do
  if session.closing then throw .closed
  if session.usedShards then throw (.invalid .wholeAfterShards)
  let ids ← result.resolve result.idForm session.query.resolver
  result.render ids session.query.start session.query.stop session.options

/-- Delivers a whole result. -/
def serialize (session : Session) (result : QueryResult)
    : Session × Except DeliveryError Unit :=
  match session.rendered result with
  | .error cause => (session, .error cause)
  | .ok text =>
    match session.document.writeResult text.source text.text with
    | (document, .error cause) => ({ session with document }, .error cause)
    | (document, .ok ()) =>
      let stats := { session.stats with serialized := session.stats.serialized + text.series }
      ({ session with document, stats, usedWhole := true }, .ok ())

/-- The table with a shard, if shards are still taken and it decodes. -/
def filed (session : Session) (shard : Shard)
    : Except DeliveryError (ShardTable × IngestOutcome) := do
  if session.closing then throw .closed
  if session.usedWhole then throw (.invalid .shardAfterWhole)
  (session.shards.ingest shard session.query.start session.query.stop).mapError
    (.decoding shard.set.source)

/-- Delivers one shard. -/
def serializePartial (session : Session) (shard : Shard)
    : Session × Except DeliveryError IngestOutcome :=
  let stats := session.stats
  match session.filed shard with
  | .error cause => (session, .error cause)
  | .ok (shards, .accepted) =>
    let stats := { stats with ingested := stats.ingested + 1 }
    ({ session with shards, stats, usedShards := true }, .ok .accepted)
  | .ok (_, outcome) =>
    ({ session with stats := { stats with skipped := stats.skipped + 1 } }, .ok outcome)

/-- The name under which failures to write shards are reported. -/
def shardsPlace : String :=
  "partial series"

/-- Writes the collected shards into the document, and tells how many series had no identity. -/
def flushShards (session : Session) : Session × Except DeliveryError Nat :=
  match session.document.ensureOpen Document.place with
  | (document, .error cause) => ({ session with document }, .error cause)
  | (document, .ok ()) =>
    let (shards, writer, result) := session.shards.flush session.query.registry document.writer
    let session := { session with shards, document := { document with writer } }
    match result with
    | .error fault => (session, .error (.serialization shardsPlace fault))
    | .ok count =>
      let stats := { session.stats with
        serialized := session.stats.serialized + count.series
        unresolved := session.stats.unresolved + count.unresolved }
      ({ session with stats }, .ok count.unresolved)

/-- The log lines that the document shows. -/
def shownLogs (query : Query) : Option (List String) :=
  if query.logLevel = .off then none else some query.logs

/-- Closes the document; with strict identities, series without one fail the call afterwards. -/
def finish (session : Session) (unresolved : Nat) : Session × Except DeliveryError Unit :=
  match session.document.close (shownLogs session.query) with
  | (document, .error cause) => ({ session with document }, .error cause)
  | (document, .ok ()) =>
    let session := { session with document }
    if 0 < unresolved ∧ session.options.strictIds then (session, .error (.unresolved unresolved))
    else (session, .ok ())

/-- Completes the query: shards are written unless whole results were, and the document is closed.
From the first attempt on, no more results are taken. -/
def complete (session : Session) : Session × Except DeliveryError Unit :=
  if session.document.state = .closed then (session, .error .closed)
  else
    -- This stays true if the completion fails, so that it can only be tried again.
    let session := { session with closing := true }
    if session.usedWhole || session.shards.isEmpty then session.finish 0
    else
      match session.flushShards with
      | (session, .error cause) => (session, .error cause)
      | (session, .ok unresolved) => session.finish unresolved

/-- Documents are not read back. -/
def deserialize (_session : Session) (_text : String) : Except DeliveryError Unit :=
  .error (.unsupported "deserializing query results")

end Session

/-- What a caller may ask of a session. -/
inductive Request where
  | whole (result : QueryResult)
  | shard (shard : Shard)
  | complete

inductive Reply where
  | done
  | filed (outcome : IngestOutcome)
  | failed (cause : DeliveryError)
  deriving DecidableEq, Repr

namespace Session

def replyOf : Except DeliveryError Unit → Reply
  | .ok () => .done
  | .error cause => .failed cause

def step (session : Session) : Request → Session × Reply
  | .whole result => (session.serialize result).map id replyOf
  | .shard shard =>
    (session.serializePartial shard).map id fun
      | .ok outcome => .filed outcome
      | .error cause => .failed cause
  | .complete => session.complete.map id replyOf

/-- The replies to requests made one after the other. -/
def run (session : Session) : List Request → Session × List Reply
  | [] => (session, [])
  | request :: rest =>
    let (next, reply) := session.step request
    let (last, replies) := next.run rest
    (last, reply :: replies)

end Session

end SeriesWire
