import SeriesWire.Proofs.Delivery.History

/-! The document of a completed session.
Completion writes what is left to write and closes the document, whatever was refused or skipped
before. From then on every request is refused and nothing changes.
-/

namespace SeriesWire

open Json

/-- A table of accepted shards is empty only if there are none. -/
theorem Ledger.isEmpty_table (ledger : Ledger) : ledger.table.isEmpty = ledger.isEmpty := by
  cases ledger with
  | nil => rfl
  | cons first rest =>
      rw [table_eq]
      have filled : first.source ∈ inOrder ((first :: rest : Ledger).map Filing.source) := by
        simp [mem_inOrder]
      simpa [ShardTable.isEmpty, SortedMap.isEmpty, SortedMap.tabulate]
        using List.ne_nil_of_mem filled

theorem Ledger.entries_nil (registry : Registry) : Ledger.entries [] registry = [] := by
  simp [entries, entriesOf, sources, inOrder]

namespace Session

variable {session : Session} {query : Query} {options : Options} {stream : Stream}
  {history : History}

/-- A session whose document closes is finished, and then answers for what is unresolved. -/
theorem finish_of_close {document : Document}
    (h : session.document.close (shownLogs session.query) = (document, .ok ()))
    (unresolved : Nat)
    : session.finish unresolved
      = ({ session with document },
          if 0 < unresolved ∧ session.options.strictIds then .error (.unresolved unresolved)
          else .ok ()) := by
  rw [finish, h]
  simp only
  split <;> rfl

/-- The session that is left when a history is completed. -/
def completed (session : Session) (query : Query) (options : Options) (stream : Stream)
    (history : History) : Session :=
  { session with
    document := .closedWith stream
      ((history.entries query options).map fun entry => entry.toJson.text) (shownLogs query)
    shards := .empty
    closing := true
    stats := { session.stats with
      serialized := ((history.entries query options).map SourceEntry.shown).sum
      unresolved := session.stats.unresolved + history.unresolved query } }

theorem Tracks.not_closed (tracks : session.Tracks query options stream history)
    : session.document.state ≠ .closed := by
  rw [tracks.document]
  split <;> simp [Document.start, Document.holding]

/-- Without accepted shards a document closes behind the whole results. -/
theorem Tracks.close (tracks : session.Tracks query options stream history)
    (unlimited : stream.room = none) (unshared : history.accepted = [])
    (logs : Option (List String))
    : session.document.close logs
      = (.closedWith stream ((history.entries query options).map fun entry => entry.toJson.text)
          logs, .ok ()) := by
  rw [tracks.document, History.entries]
  split
  · have none : (history.ledger query).entries query.registry = [] := by
      rw [History.ledger, unshared]
      exact Ledger.entries_nil query.registry
    rw [none]
    exact Document.close_start unlimited logs
  · rw [Document.close_holding unlimited, List.map_map]
    rfl

/-- Without accepted shards completion closes the document behind the whole results. -/
theorem Tracks.complete_whole (tracks : session.Tracks query options stream history)
    (unlimited : stream.room = none) (unshared : history.accepted = [])
    : session.complete = (session.completed query options stream history, .ok ()) := by
  have ledger : history.ledger query = [] := by
    rw [History.ledger, unshared]
    rfl
  have empty : session.shards = .empty := by
    rw [tracks.shards, ledger]
    rfl
  have unresolved : history.unresolved query = 0 := by
    rw [History.unresolved, ledger]
    rfl
  have serialized : session.stats.serialized
      = ((history.entries query options).map SourceEntry.shown).sum := by
    rw [tracks.serialized, History.entries, ledger]
    split
    · rename_i unwhole
      rw [List.isEmpty_iff.mp unwhole, Ledger.entries_nil]
      rfl
    · rw [List.map_map]
      rfl
  have closes := tracks.close unlimited unshared (shownLogs query)
  have idle : (session.usedWhole || session.shards.isEmpty) = true := by
    rw [empty]
    simp [ShardTable.isEmpty, ShardTable.empty, SortedMap.isEmpty, SortedMap.empty]
  rw [Session.complete, if_neg tracks.not_closed]
  simp only [idle, if_true]
  rw [finish_of_close (by simpa only [tracks.asked] using closes)]
  simp only [completed, unresolved, Nat.lt_irrefl, false_and, if_false, ← serialized, ← empty,
    Nat.add_zero]

/-- The results of the shards are written into a new document. -/
theorem flushShards_start (session : Session) (unlimited : stream.room = none) (ledger : Ledger)
    (document : session.document = .start stream) (shards : session.shards = ledger.table)
    : ∃ count,
        session.flushShards
        = ({ session with
              shards := .empty
              document := .holding stream
                ((ledger.entries session.query.registry).map fun entry => entry.toJson.text) count
              stats := { session.stats with
                serialized := session.stats.serialized
                  + ((ledger.entries session.query.registry).map SourceEntry.shown).sum
                unresolved := session.stats.unresolved
                  + ledger.slots.countP fun slot =>
                      (ledger.identity? session.query.registry slot).isNone } },
            .ok (ledger.slots.countP fun slot =>
              (ledger.identity? session.query.registry slot).isNone)) := by
  have opened : (Document.holding stream [] 0).writer.stream.room = none := unlimited
  obtain ⟨count, _, flushed⟩ := ledger.flush_table session.query.registry opened 0 [⟨.object, 1⟩]
  have written : (Document.holding stream [] 0).writer.stream.extend (separated 0
        ((ledger.entries session.query.registry).map fun entry => entry.toJson.text))
      = (Document.holding stream
          ((ledger.entries session.query.registry).map fun entry => entry.toJson.text)
          count).writer.stream := by
    simp only [Document.holding, separated_zero, String.intercalate_nil, Stream.extend_append,
      Stream.extend_empty]
  have held : ledger.table.flush session.query.registry (Document.holding stream [] 0).writer
      = (.empty,
          (Document.holding stream
            ((ledger.entries session.query.registry).map fun entry => entry.toJson.text)
            count).writer,
          .ok ⟨ledger.slots.countP fun slot =>
                (ledger.identity? session.query.registry slot).isSome,
              ledger.slots.countP fun slot =>
                (ledger.identity? session.query.registry slot).isNone⟩) := by
    rw [written] at flushed
    exact flushed
  refine ⟨count, ?_⟩
  simp only [flushShards, document, Document.ensureOpen_start unlimited, shards, held,
    Ledger.shown_entries]
  rfl

/-- Accepted shards are flushed into the document before it is closed. -/
theorem Tracks.complete_shards (tracks : session.Tracks query options stream history)
    (unlimited : stream.room = none) (shared : history.accepted ≠ [])
    : session.complete
      = (session.completed query options stream history,
          if 0 < history.unresolved query ∧ options.strictIds then
            .error (.unresolved (history.unresolved query))
          else .ok ()) := by
  have unwhole : history.wholes = [] := tracks.exclusive.resolve_right shared
  have document : session.document = .start stream := by
    rw [tracks.document, unwhole]
    rfl
  have filled : session.shards.isEmpty = false := by
    obtain ⟨shard, member⟩ := List.exists_mem_of_ne_nil _ shared
    have filed : Filing.mk ⟨shard, query.start, query.stop⟩ (tracks.accepted shard member)
        ∈ history.ledger query :=
      Ledger.mem_of.mpr (List.mem_map.mpr ⟨shard, member, rfl⟩)
    rw [tracks.shards, Ledger.isEmpty_table]
    simpa using List.ne_nil_of_mem filed
  have entries : history.entries query options
      = (history.ledger query).entries query.registry := by
    rw [History.entries, unwhole]
    rfl
  have serialized : session.stats.serialized = 0 := by
    rw [tracks.serialized, unwhole]
    rfl
  have busy : (session.usedWhole || session.shards.isEmpty) = false := by
    rw [tracks.usedWhole, unwhole, filled]
    rfl
  obtain ⟨count, flushed⟩ := flushShards_start { session with closing := true } unlimited
    (history.ledger query) document tracks.shards
  obtain rfl := tracks.asked
  obtain rfl := tracks.configured
  rw [Session.complete, if_neg tracks.not_closed]
  simp only [busy, flushed, Bool.false_eq_true, if_false]
  rw [finish_of_close (Document.close_holding unlimited _ count _)]
  simp only [completed, entries, serialized, Nat.zero_add, History.unresolved]
  rfl

/-- Every request has a reply, by induction on the requests. -/
theorem length_run (session : Session) (requests : List Request)
    : (session.run requests).2.length = requests.length := by
  induction requests generalizing session with
  | nil => rfl
  | cons request rest ih => simp [run, ih]

/-- A session that has been completed refuses everything and stays as it is, by induction on the
requests.
-/
theorem run_of_closed (closing : session.closing = true)
    (closed : session.document.state = .closed) (requests : List Request)
    : session.run requests = (session, requests.map fun _ => .failed .closed) := by
  have refused (request : Request) : session.step request = (session, .failed .closed) := by
    cases request with
    | whole result =>
        simp [step, serialize, rendered, closing, Prod.map, replyOf, bind, Except.bind, throw,
          throwThe, MonadExceptOf.throw]
    | shard shard =>
        simp [step, serializePartial, filed, closing, Prod.map, bind, Except.bind, throw,
          throwThe, MonadExceptOf.throw]
    | complete => simp [step, complete, closed, Prod.map, replyOf]
  induction requests with
  | nil => rfl
  | cons request rest ih => simp [run, refused, ih]

/-- Completion closes the document behind everything that was taken, and fails only for series that
have no identity.
-/
theorem Tracks.complete (tracks : session.Tracks query options stream history)
    (unlimited : stream.room = none)
    : session.complete
      = (session.completed query options stream history,
          if 0 < history.unresolved query ∧ options.strictIds then
            .error (.unresolved (history.unresolved query))
          else .ok ()) := by
  by_cases shared : history.accepted = []
  · have none : history.unresolved query = 0 := by
      rw [History.unresolved, History.ledger, shared]
      rfl
    rw [tracks.complete_whole unlimited shared, none, if_neg (by simp)]
  · exact tracks.complete_shards unlimited shared

/-- What a session leaves behind that was given any results and shards, in any order and with any
failures, and was then completed. The completion closes the document; it fails only if identities
are strict and an accepted series has none. The stream holds exactly the document of what was taken:
the whole results that were written, as they were rendered, or the series of the accepted shards.
The count of delivered series is that of the series shown there. Afterwards every request is refused
and changes nothing.
-/
theorem run_complete (started : start query options stream = .ok session)
    (unlimited : stream.room = none) {requests : List Request} (more : .complete ∉ requests)
    : ∃ before replies last, ∃ history : History,
        session.run requests = (before, replies)
        ∧ replies.length = requests.length
        ∧ history = requests.zip replies
        ∧ before.step .complete
          = (last,
              if 0 < history.unresolved query ∧ options.strictIds then
                .failed (.unresolved (history.unresolved query))
              else .done)
        ∧ last.document.state = .closed
        ∧ last.document.writer.stream
          = stream.extend (Document.text
              ((history.entries query options).map fun entry => entry.toJson.text)
              (if query.logLevel = .off then none else some query.logs))
        ∧ (∀ result ∈ history.wholes, ∃ ids,
            result.resolve result.idForm query.resolver = .ok ids
            ∧ result.render ids query.start query.stop options
              = .ok ⟨result.source, (result.entryFor query options).toJson.text,
                  (result.entryFor query options).shown⟩)
        ∧ (history.wholes = [] ∨ history.accepted = [])
        ∧ (history.ledger query).Layout query.registry
        ∧ last.stats.serialized = ((history.entries query options).map SourceEntry.shown).sum
        ∧ ∀ later, last.run later = (last, later.map fun _ => .failed .closed) := by
  have tracks := (Tracks.start started).run unlimited more
  rw [List.nil_append] at tracks
  have completes := tracks.complete unlimited
  refine ⟨_, _, (session.run requests).1.completed query options stream
    (requests.zip (session.run requests).2), _, rfl, length_run session requests, rfl, ?_, rfl, rfl,
    ?_, tracks.exclusive, Ledger.layout _ _, rfl, fun later => run_of_closed rfl rfl later⟩
  · rw [Session.step, completes]
    refine congrArg (Prod.mk _) ?_
    exact (apply_ite replyOf _ _ _)
  · intro result member
    obtain ⟨ids, known⟩ := tracks.resolved result member
    exact ⟨ids, known, QueryResult.render_eq_entryFor known options⟩

end Session

/-- A query over the first minute that knows one identity. -/
def Query.firstMinute : Query where
  start := .ofEpoch 0
  stop := .ofEpoch 60
  logLevel := .info
  logs := ["ready"]
  registry := Registry.empty.registerAs ⟨7, .string⟩ (.ofMetric "cpu")
  resolver := none

namespace Session

/-- Shards of a known and of an unknown series, one of them twice. -/
def someShards : List Request :=
  [.shard (Offer.single 7 30 (.int 5)).shard, .shard (Offer.single 8 30 (.int 6)).shard,
    .shard (Offer.single 7 30 (.int 5)).shard]

/-- A result with one number under the given identity. -/
def oneNumber (id : SeriesId) : QueryResult :=
  ⟨"m1", "sys", .other, none, none, [⟨id, [.numeric [⟨.ofEpoch 5, some (.int 1)⟩]]⟩]⟩

/-- A result that resolves, one that does not, and a shard behind them. -/
def someWholes : List Request :=
  [.whole (oneNumber (.named (.ofMetric "cpu"))), .whole (oneNumber (.encoded ⟨[1]⟩)),
    .shard (Offer.single 7 30 (.int 5)).shard]

/-- With strict identities the document is closed with the shards of the known series, and the other
one fails the completion. Whole results leave the one that resolved; the other and the shard behind
them fail and leave nothing.
-/
theorem run_complete_unresolved
    : (∃ session before last,
        start .firstMinute ⟨false, 0, true⟩ .unlimited = .ok session
        ∧ session.run someShards = (before, [.filed .accepted, .filed .accepted, .filed .accepted])
        ∧ before.step .complete = (last, .failed (.unresolved 1))
        ∧ last.document.state = .closed
        ∧ last.stats.serialized = 1
        ∧ last.run [.complete] = (last, [.failed .closed]))
      ∧ ∃ session before last,
        start .firstMinute .standard .unlimited = .ok session
        ∧ session.run someWholes
          = (before, [.done, .failed (.invalid (.missingResolver "m1:sys")),
              .failed (.invalid .shardAfterWhole)])
        ∧ before.step .complete = (last, .done)
        ∧ last.document.state = .closed
        ∧ last.document.writer.stream
          = Stream.unlimited.extend
              ("\x7b\"results\":[\x7b\"source\":\"m1:sys\",\"data\":["
                ++ "\x7b\"metric\":\"cpu\",\"tags\":\x7b\x7d,\"aggregateTags\":[],"
                ++ "\"NumericType\":\x7b\"5\":1\x7d\x7d]\x7d],\"log\":[\"ready\"]\x7d")
        ∧ last.stats.serialized = 1
        ∧ last.run someWholes
          = (last, [.failed .closed, .failed .closed, .failed .closed]) := by
  constructor
  · obtain ⟨before, replies, last, history, ran, _, rfl, stepped, closed, _, _, _, _, counted,
      later⟩ :=
      run_complete (rfl : start .firstMinute ⟨false, 0, true⟩ .unlimited = .ok _) rfl
        (by simp [someShards] : Request.complete ∉ someShards)
    have answered : replies = [.filed .accepted, .filed .accepted, .filed .accepted] := by
      refine (congrArg Prod.snd ran).symm.trans ?_
      decide +kernel
    subst answered
    refine ⟨_, before, last, rfl, ran, stepped.trans ?_, closed, counted.trans ?_,
      later [.complete]⟩
    · refine congrArg (Prod.mk last) ?_
      decide +kernel
    · refine (Ledger.shown_entries (History.ledger _ _) Query.firstMinute.registry).trans ?_
      decide +kernel
  · obtain ⟨before, replies, last, history, ran, _, rfl, stepped, closed, accepted, _, _, _,
      counted, later⟩ :=
      run_complete (rfl : start .firstMinute .standard .unlimited = .ok _) rfl
        (by simp [someWholes] : Request.complete ∉ someWholes)
    have answered : replies = [.done, .failed (.invalid (.missingResolver "m1:sys")),
        .failed (.invalid .shardAfterWhole)] := by
      refine (congrArg Prod.snd ran).symm.trans ?_
      decide +kernel
    subst answered
    refine ⟨_, before, last, rfl, ran, stepped.trans ?_, closed,
      accepted.trans (congrArg (Stream.extend _) ?_), counted.trans ?_, later someWholes⟩
    · refine congrArg (Prod.mk last) ?_
      decide +kernel
    · decide +kernel
    · decide +kernel

end Session

end SeriesWire
