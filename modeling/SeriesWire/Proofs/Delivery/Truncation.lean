import SeriesWire.Delivery.Call
import SeriesWire.Delivery.Session
import SeriesWire.Proofs.Delivery.Completion
import SeriesWire.Proofs.Json.Truncation
import SeriesWire.Proofs.Shard.Flushing

/-! Documents and sessions on a stream that breaks.
A failure may leave a scope half written, a document still empty or a table half emptied, but a
broken stream takes nothing of what follows.
-/

namespace SeriesWire

open Json OnStream

-----------------------------------------------------------------------------------------
-- Documents
-----------------------------------------------------------------------------------------

instance : OnStream Document where
  stream document := stream document.writer
  onto document stream := { document with writer := onto document.writer stream }
  stream_onto _ _ := rfl
  onto_stream _ := rfl

namespace Document

variable {α : Type}

/-- Makes the document's writer do something. -/
def inWriter (action : Writer → Writer × α) (document : Document) : Document × α :=
  ({ document with writer := (action document.writer).1 }, (action document.writer).2)

theorem truncates_inWriter {action : Writer → Writer × α} (inner : Truncates action)
    : Truncates (inWriter action) :=
  .part Document.writer (fun document writer => { document with writer }) (fun _ _ => rfl)
    (fun _ _ => rfl) (fun _ _ _ => rfl) (fun _ _ => rfl) inner

theorem truncates_writeAs (place : String) (tokens : List Token) (state : DocumentState)
    : Truncates fun document : Document => document.writeAs place tokens state := by
  refine .attempt (truncates_inWriter (Writer.truncates_writeAll tokens))
    (fun _ => .change (fun document => Document.mk document.writer state) (.ok ()) fun _ _ => rfl)
    (fun fault => .nothing (.error (.serialization place fault))) fun document => ?_
  rw [writeAs, inWriter]
  rcases document.writer.writeAll tokens with ⟨next, _ | _⟩ <;> rfl

theorem truncates_ensureOpen (place : String)
    : Truncates fun document : Document => document.ensureOpen place := by
  refine (Truncates.either (fun document => document.state = .empty) (fun _ _ => Iff.rfl)
    (truncates_writeAs place openingTokens .opened)
    (.either (fun document => document.state = .closed) (fun _ _ => Iff.rfl)
      (.nothing (.error .closed)) (.nothing (.ok ())))).congr fun document => ?_
  obtain ⟨writer, _ | _ | _⟩ := document <;> rfl

/-- What is done once the document is open. -/
theorem truncates_opened {place : String} {whole : Document → Document × Except DeliveryError α}
    {onward : Document → Document × Except DeliveryError α} (inner : Truncates onward)
    (h : ∀ document, whole document = match document.ensureOpen place with
      | (document, .ok ()) => onward document
      | (document, .error cause) => (document, .error cause))
    : Truncates whole := by
  refine .attempt (truncates_ensureOpen place) (fun _ => inner)
    (fun cause => .nothing (.error cause)) fun document => ?_
  rw [h]
  rcases document.ensureOpen place with ⟨next, _ | _⟩ <;> rfl

theorem truncates_writeResult (source text : String)
    : Truncates fun document : Document => document.writeResult source text :=
  truncates_opened (.bind (fun state document => document.writeAs source [.raw text] state)
    (.look Document.state fun _ _ => rfl) fun state => truncates_writeAs source [.raw text] state)
    fun _ => rfl

theorem truncates_finish (logs : Option (List String))
    : Truncates fun document : Document => document.finish logs := by
  have flushed := Truncates.attempt (truncates_inWriter Writer.truncates_flush)
    (fun _ => .change (fun document => Document.mk document.writer .closed) (Except.ok ())
      fun _ _ => rfl)
    (fun fault => .nothing (Except.error (DeliveryError.serialization place fault))) fun _ => rfl
  have ended := Truncates.bind _ (.look Document.state fun _ _ => rfl)
    fun state => truncates_writeAs place (closingTokens logs) state
  refine .attempt ended (fun _ => flushed) (fun cause => .nothing (.error cause)) fun document => ?_
  simp only [finish, inWriter]
  rcases document.writeAs place (closingTokens logs) document.state with ⟨next, _ | _⟩
  · rfl
  · simp only
    rcases next.writer.flush with _ | _ <;> rfl

theorem truncates_close (logs : Option (List String))
    : Truncates fun document : Document => document.close logs :=
  truncates_opened (truncates_finish logs) fun _ => rfl

theorem truncates_writeCalls (calls : List Call)
    : Truncates fun document : Document => document.writeCalls calls :=
  truncates_opened (.bind (fun answers document => (document, Except.ok answers))
    (truncates_inWriter (Writer.truncates_run calls)) fun _ => .still fun _ _ => rfl)
    fun _ => rfl

/-- Every call of a document, by the kinds of calls. -/
theorem truncates_step (call : DocumentCall)
    : Truncates fun document : Document => document.step call := by
  cases call with
  | state => exact .still fun _ _ => rfl
  | results calls => exact (truncates_writeCalls calls).map (replyOf .results)
  | writeResult source text =>
      exact (truncates_writeResult source text).map (replyOf fun _ => .done)
  | close logs => exact (truncates_close logs).map (replyOf fun _ => .done)

theorem runs : Runs (fun call document => document.step call) run :=
  ⟨fun _ => rfl, fun _ _ _ => rfl⟩

end Document

-----------------------------------------------------------------------------------------
-- Shards
-----------------------------------------------------------------------------------------

namespace ShardTable

/-- A flush of sources, as the writer goes through it. -/
def writeSources (registry : Registry) (sources : List (String × SortedMap UInt64 Shelf))
    (taken : Nat) (count : FlushCount) (writer : Writer)
    : Writer × Nat × Except Fault FlushCount :=
  let (taken, writer, result) := flushSources registry sources writer taken count
  (writer, taken, result)

/-- Sources are written up to the first that fails, by induction on them. -/
theorem truncates_writeSources (registry : Registry)
    (sources : List (String × SortedMap UInt64 Shelf)) (taken : Nat) (count : FlushCount)
    : Truncates (writeSources registry sources taken count) := by
  induction sources generalizing taken count with
  | nil => exact .still fun _ _ => rfl
  | cons head rest ih =>
      refine .attempt (Writer.truncates_writeAll (sourceTokens head.1 (found registry head.2)))
        (fun _ => ih (taken + 1) (tally registry count head.2))
        (fun fault => .nothing (taken + 1, Except.error fault)) fun writer => ?_
      simp only [writeSources, flushSources, found, tally]
      split
      all_goals
        rename_i written
        simp only [written]

/-- The flush of a table, as the writer goes through it. -/
def writeTable (registry : Registry) (table : ShardTable) (writer : Writer)
    : Writer × ShardTable × Except Fault FlushCount :=
  let (rest, writer, result) := table.flush registry writer
  (writer, rest, result)

theorem truncates_writeTable (registry : Registry) (table : ShardTable)
    : Truncates (writeTable registry table) :=
  (truncates_writeSources registry table.sources.entries 0 ⟨0, 0⟩).map fun answer =>
    (ShardTable.mk (table.sources.drop answer.1), answer.2)

end ShardTable

-----------------------------------------------------------------------------------------
-- Sessions
-----------------------------------------------------------------------------------------

instance : OnStream Session where
  stream session := stream session.document
  onto session stream := { session with document := onto session.document stream }
  stream_onto _ _ := rfl
  onto_stream _ := rfl

namespace Session

variable {α : Type}

/-- Makes the session's document do something. -/
def inDocument (action : Document → Document × α) (session : Session) : Session × α :=
  ({ session with document := (action session.document).1 }, (action session.document).2)

theorem truncates_inDocument {action : Document → Document × α} (inner : Truncates action)
    : Truncates (inDocument action) :=
  .part Session.document (fun session document => { session with document }) (fun _ _ => rfl)
    (fun _ _ => rfl) (fun _ _ _ => rfl) (fun _ _ => rfl) inner

/-- A whole result is rendered before anything is written. -/
theorem truncates_serialize (result : QueryResult)
    : Truncates fun session : Session => session.serialize result := by
  have written (text : RenderedResult) := Truncates.attempt
    (truncates_inDocument (Document.truncates_writeResult text.source text.text))
    (fun _ => .change (fun session => { session with
        stats := { session.stats with serialized := session.stats.serialized + text.series }
        usedWhole := true }) (Except.ok ()) fun _ _ => rfl)
    (fun cause => .nothing (Except.error cause)) fun _ => rfl
  refine .attempt (.look (fun session => session.rendered result) fun _ _ => rfl) written
    (fun cause => .nothing (.error cause)) fun session => ?_
  rw [serialize]
  cases session.rendered result with
  | error cause => rfl
  | ok text =>
      simp only [inDocument]
      rcases session.document.writeResult text.source text.text with ⟨document, _ | _⟩ <;> rfl

/-- A shard is collected, and nothing is written. -/
theorem truncates_serializePartial (shard : Shard)
    : Truncates fun session : Session => session.serializePartial shard := by
  refine .still fun session t => ?_
  have same : (onto session t).filed shard = session.filed shard := rfl
  unfold serializePartial
  rw [same]
  rcases session.filed shard with cause | ⟨shards, _ | _ | _⟩ <;> rfl

/-- What a session takes over from a flush. -/
def afterFlush (session : Session) (rest : ShardTable)
    : Except Fault FlushCount → Session × Except DeliveryError Nat
  | .error fault => ({ session with shards := rest }, .error (.serialization shardsPlace fault))
  | .ok count =>
    ({ session with
        shards := rest
        stats := { session.stats with
          serialized := session.stats.serialized + count.series
          unresolved := session.stats.unresolved + count.unresolved } },
      .ok count.unresolved)

/-- A flush writes what is in the table, and what is left of the table is not written again. -/
theorem truncates_flushShards : Truncates fun session : Session => session.flushShards := by
  have flushed (table : ShardTable) (registry : Registry) := Truncates.bind
    (fun answer session => afterFlush session answer.1 answer.2)
    (truncates_inDocument (Document.truncates_inWriter
      (ShardTable.truncates_writeTable registry table)))
    fun answer => .still fun _ _ => by
      rcases answer with ⟨rest, _ | _⟩ <;> rfl
  have opened := Truncates.bind _
    (.look (fun session : Session => (session.shards, session.query.registry)) fun _ _ => rfl)
    fun found => flushed found.1 found.2
  refine .attempt (truncates_inDocument (Document.truncates_ensureOpen Document.place))
    (fun _ => opened) (fun cause => .nothing (.error cause)) fun session => ?_
  simp only [flushShards, inDocument]
  rcases session.document.ensureOpen Document.place with ⟨document, _ | _⟩
  · rfl
  · simp only [Document.inWriter, ShardTable.writeTable]
    rcases session.shards.flush session.query.registry document.writer
      with ⟨rest, writer, _ | _⟩ <;> rfl

theorem truncates_finish (unresolved : Nat)
    : Truncates fun session : Session => session.finish unresolved := by
  have closed (logs : Option (List String)) := Truncates.attempt
    (truncates_inDocument (Document.truncates_close logs))
    (fun _ => .either (fun session => 0 < unresolved ∧ session.options.strictIds)
      (fun _ _ => Iff.rfl) (.nothing (Except.error (DeliveryError.unresolved unresolved)))
      (.nothing (.ok ())))
    (fun cause => .nothing (.error cause)) fun _ => rfl
  refine (Truncates.bind _ (.look (fun session => shownLogs session.query) fun _ _ => rfl)
    closed).congr fun session => ?_
  simp only [finish, inDocument]
  rcases session.document.close (shownLogs session.query) with ⟨document, _ | _⟩ <;> rfl

/-- Whether shards are written is known before anything is. -/
theorem truncates_complete : Truncates fun session : Session => session.complete := by
  have flushed := Truncates.attempt truncates_flushShards truncates_finish
    (fun cause => .nothing (Except.error cause)) fun _ => rfl
  have delivered := Truncates.either (fun session => session.usedWhole || session.shards.isEmpty)
    (fun _ _ => Iff.rfl) (truncates_finish 0) flushed
  have closing := Truncates.change (fun session : Session => { session with closing := true }) ()
    fun _ _ => rfl
  refine (Truncates.either (fun session : Session => session.document.state = .closed)
    (fun _ _ => Iff.rfl) (.nothing (Except.error DeliveryError.closed))
    (closing.bind _ fun _ => delivered)).congr fun session => ?_
  simp only [complete]
  by_cases ended : session.document.state = .closed
  · simp only [ended, if_true]
  · simp only [ended, if_false]
    split
    · rfl
    · rcases Session.flushShards _ with ⟨next, _ | _⟩ <;> rfl

/-- Every request, by the kinds of requests. -/
theorem truncates_step (request : Request)
    : Truncates fun session : Session => session.step request := by
  cases request with
  | whole result => exact (truncates_serialize result).map replyOf
  | shard shard =>
      simp only [step]
      exact (truncates_serializePartial shard).map _
  | complete => exact truncates_complete.map replyOf

theorem runs : Runs (fun request session => session.step request) run :=
  ⟨fun _ => rfl, fun _ _ _ => rfl⟩

/-- Sessions that start on different streams differ in nothing else. -/
theorem onto_of_start {query : Query} {options : Options} {stream other : Stream}
    {session moved : Session} (started : start query options stream = .ok session)
    (elsewhere : start query options other = .ok moved)
    : moved = onto session other := by
  by_cases reversed : query.stop < query.start
  · simp [start, reversed] at started
  · rw [start, if_neg reversed] at started elsewhere
    cases started
    cases elsewhere
    rfl

end Session

-----------------------------------------------------------------------------------------
-- Runs
-----------------------------------------------------------------------------------------

/-- A stream that breaks truncates what is written to it, whatever the calls are, how many of them
fail, and wherever inside a call the limit is reached. It accepts the first bytes of what the same
calls write to a stream that never breaks, as many as it has room for, and the calls before the
limit is crossed have the same answers. This holds for the requests of a query, for the calls of a
document and for the calls of a writer that starts anywhere.
-/
theorem run_cutOff (limit : Nat)
    : (∀ query options cut whole requests,
        Session.start query options (.limited limit) = .ok cut
        → Session.start query options .unlimited = .ok whole
        → CutOff limit Session.run cut whole requests)
      ∧ (∀ calls, CutOff limit Document.run (.start (.limited limit)) (.start .unlimited) calls)
      ∧ ∀ cursor calls,
          CutOff limit Writer.run (.start (.limited limit) cursor) (.start .unlimited cursor)
            calls := by
  refine ⟨fun query options cut whole requests opened started => ?_, fun calls => ?_,
    fun cursor calls => ?_⟩
  · have moved := Session.runs.cutOff Session.truncates_step limit whole requests
    rwa [← Session.onto_of_start started opened, ← Session.onto_of_start started started] at moved
  · exact Document.runs.cutOff Document.truncates_step limit (.start .unlimited) calls
  · exact Writer.runs.cutOff Writer.truncates_call limit (.start .unlimited cursor) calls

/-- A completion that breaks inside the only series, and another one after it. -/
theorem run_cutOff_broken
    : ∃ cut whole,
        Session.start .firstMinute .standard (.limited 40) = .ok cut
        ∧ Session.start .firstMinute .standard .unlimited = .ok whole
        ∧ (cut.run [.shard (Offer.single 7 30 (.int 5)).shard, .complete, .complete]).2
          = [.filed .accepted, .failed (.serialization Session.shardsPlace .broken),
              .failed (.serialization Document.place (.misuse .closedUnopened))]
        ∧ (whole.run [.shard (Offer.single 7 30 (.int 5)).shard, .complete, .complete]).2
          = [.filed .accepted, .done, .failed .closed]
        ∧ CutOff 40 Session.run cut whole
            [.shard (Offer.single 7 30 (.int 5)).shard, .complete, .complete] := by
  refine ⟨_, _, rfl, rfl, ?_, ?_, (run_cutOff 40).1 .firstMinute .standard _ _ _ rfl rfl⟩
  · decide +kernel
  · decide +kernel

end SeriesWire
