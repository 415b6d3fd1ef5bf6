import SeriesWire.Delivery.Session
import SeriesWire.Proofs.Delivery.Document
import SeriesWire.Proofs.Shard.Accounting

/-! What a session has taken, read off the requests and their replies.
Requests that were refused or skipped leave the session as a history without them would, so its
state is determined by the whole results that were written or by the shards that were accepted.
-/

namespace SeriesWire

open Json

-----------------------------------------------------------------------------------------
-- Whole results
-----------------------------------------------------------------------------------------

/-- Each item that is read gives one value, by induction on the items. -/
theorem length_of_mapM_ok {α β ε : Type} {read : α → Except ε β} {items : List α}
    {values : List β} (h : items.mapM read = .ok values)
    : values.length = items.length := by
  induction items generalizing values with
  | nil =>
      cases h
      rfl
  | cons item rest ih =>
      rw [List.mapM_cons] at h
      cases hr : read item with
      | error cause => simp [hr, bind, Except.bind] at h
      | ok value =>
          cases hm : rest.mapM read with
          | error cause => simp [hr, hm, bind, Except.bind] at h
          | ok others =>
              have whole : value :: others = values := by
                simpa [hr, hm, bind, Except.bind, pure, Except.pure] using h
              rw [← whole, List.length_cons, List.length_cons, ih hm]

namespace QueryResult

theorem length_of_resolve_ok {result : QueryResult} {form : IdForm} {resolver : Option Resolver}
    {ids : List SeriesName} (h : result.resolve form resolver = .ok ids)
    : ids.length = result.series.length := by
  unfold resolve at h
  split at h
  · simp at h
  · cases hm : result.series.mapM fun series => series.id.resolve resolver with
    | error cause => simp [hm, Except.mapError] at h
    | ok names =>
        have same : names = ids := by simpa [hm, Except.mapError] using h
        exact same ▸ length_of_mapM_ok hm

/-- The identities of a result in a query. -/
def ids (result : QueryResult) (query : Query) : Except DeliveryError (List SeriesName) :=
  result.resolve result.idForm query.resolver

/-- The entry of a result whose identities resolve in a query. -/
def entryFor (query : Query) (options : Options) (result : QueryResult) : SourceEntry :=
  result.entry ((result.ids query).toOption.getD []) query.start query.stop options

/-- A result whose identities resolve is rendered as its entry. -/
theorem render_eq_entryFor {result : QueryResult} {query : Query} {ids : List SeriesName}
    (h : result.ids query = .ok ids) (options : Options)
    : result.render ids query.start query.stop options
      = .ok ⟨result.source, (result.entryFor query options).toJson.text,
          (result.entryFor query options).shown⟩ := by
  have entry : result.entryFor query options
      = result.entry ids query.start query.stop options := by
    simp [entryFor, h, Except.toOption]
  rw [entry]
  exact result.render_eq_entry ids query.start query.stop options (length_of_resolve_ok h)

end QueryResult

-----------------------------------------------------------------------------------------
-- Histories
-----------------------------------------------------------------------------------------

/-- Requests with the replies to them. -/
abbrev History :=
  List (Request × Reply)

namespace History

/-- The whole results that were written. -/
def wholes (history : History) : List QueryResult :=
  history.filterMap fun
    | (.whole result, .done) => some result
    | _ => none

/-- The shards that were accepted. -/
def accepted (history : History) : List Shard :=
  history.filterMap fun
    | (.shard shard, .filed .accepted) => some shard
    | _ => none

/-- The ledger of the accepted shards. -/
def ledger (history : History) (query : Query) : Ledger :=
  .of (Shard.offers query.start query.stop history.accepted)

/-- The results of the document: whole ones if any were written, else those of the shards. -/
def entries (history : History) (query : Query) (options : Options) : List SourceEntry :=
  if history.wholes.isEmpty then (history.ledger query).entries query.registry
  else history.wholes.map (QueryResult.entryFor query options)

/-- The accepted series that have no identity. -/
def unresolved (history : History) (query : Query) : Nat :=
  (history.ledger query).slots.countP fun slot =>
    ((history.ledger query).identity? query.registry slot).isNone

@[simp]
theorem wholes_append (history more : History)
    : wholes (history ++ more) = history.wholes ++ wholes more := by
  simp [wholes]

@[simp]
theorem accepted_append (history more : History)
    : accepted (history ++ more) = history.accepted ++ accepted more := by
  simp [accepted]

/-- Accepted shards go to the end of the ledger. -/
theorem ledger_append (history more : History) (query : Query)
    : ledger (history ++ more) query = history.ledger query ++ ledger more query := by
  simp [ledger, Shard.offers, Ledger.of]

end History

namespace Session

/-- A session that has not been asked to complete is determined by its history. -/
structure Tracks (session : Session) (query : Query) (options : Options) (stream : Stream)
    (history : History) : Prop where
  asked : session.query = query
  configured : session.options = options
  closing : session.closing = false
  usedWhole : session.usedWhole = !history.wholes.isEmpty
  usedShards : session.usedShards = !history.accepted.isEmpty
  exclusive : history.wholes = [] ∨ history.accepted = []
  resolved : ∀ result ∈ history.wholes, ∃ ids, result.ids query = .ok ids
  accepted
    : ∀ shard ∈ history.accepted,
        (Offer.mk shard query.start query.stop).outcome = .ok .accepted
  shards : session.shards = (history.ledger query).table
  document
    : session.document
      = if history.wholes.isEmpty then .start stream
        else
          .holding stream
            (history.wholes.map fun result => (result.entryFor query options).toJson.text)
            history.wholes.length
  serialized
    : session.stats.serialized
      = (history.wholes.map fun result => (result.entryFor query options).shown).sum

variable {session : Session} {query : Query} {options : Options} {stream : Stream}
  {history : History}

theorem Tracks.start (started : Session.start query options stream = .ok session)
    : session.Tracks query options stream [] := by
  unfold Session.start at started
  split at started
  · simp at started
  · cases started
    constructor <;> simp [History.wholes, History.accepted, History.ledger, Shard.offers,
      Ledger.of, Ledger.table]

/-- A request that is refused or skipped leaves at most a mark in the statistics. -/
theorem Tracks.ignore (tracks : session.Tracks query options stream history)
    {request : Request} {reply : Reply} (unwritten : History.wholes [(request, reply)] = [])
    (unfiled : History.accepted [(request, reply)] = []) (skipped : Nat)
    : { session with stats := { session.stats with skipped } : Session }.Tracks query options
        stream (history ++ [(request, reply)]) := by
  have wholes : History.wholes (history ++ [(request, reply)]) = history.wholes := by
    simp [unwritten]
  have accepted : History.accepted (history ++ [(request, reply)]) = history.accepted := by
    simp [unfiled]
  have ledger : History.ledger (history ++ [(request, reply)]) query = history.ledger query := by
    rw [History.ledger, accepted, History.ledger]
  exact {
    asked := tracks.asked
    configured := tracks.configured
    closing := tracks.closing
    usedWhole := wholes ▸ tracks.usedWhole
    usedShards := accepted ▸ tracks.usedShards
    exclusive := wholes ▸ accepted ▸ tracks.exclusive
    resolved := wholes ▸ tracks.resolved
    accepted := accepted ▸ tracks.accepted
    shards := ledger ▸ tracks.shards
    document := wholes ▸ tracks.document
    serialized := wholes ▸ tracks.serialized }

theorem Tracks.writeResult (tracks : session.Tracks query options stream history)
    (unlimited : stream.room = none) (source text : String)
    : session.document.writeResult source text
      = (.holding stream
          ((history.wholes.map fun result => (result.entryFor query options).toJson.text) ++ [text])
          (history.wholes.length + 1), .ok ()) := by
  rw [tracks.document]
  cases h : history.wholes with
  | nil => exact Document.writeResult_start unlimited source text
  | cons first rest =>
      have written := Document.writeResult_holding unlimited
        ((first :: rest).map fun result => (result.entryFor query options).toJson.text) source text
      simpa using written

/-- Without accepted shards a result is rendered as its entry, if its identities resolve. -/
theorem Tracks.rendered (tracks : session.Tracks query options stream history)
    (unshared : session.usedShards = false) (result : QueryResult)
    : session.rendered result
      = (result.ids query).map fun _ =>
          ⟨result.source, (result.entryFor query options).toJson.text,
            (result.entryFor query options).shown⟩ := by
  have asked : session.rendered result
      = (result.ids query).bind fun ids =>
          result.render ids query.start query.stop options := by
    simp [Session.rendered, QueryResult.ids, tracks.closing, unshared, tracks.asked,
      tracks.configured, bind, Except.bind]
  rw [asked]
  cases h : result.ids query with
  | error cause => rfl
  | ok ids => exact QueryResult.render_eq_entryFor h options

/-- A written result is the last of the whole ones. -/
theorem Tracks.written (tracks : session.Tracks query options stream history)
    (unshared : history.accepted = []) {result : QueryResult} {ids : List SeriesName}
    (known : result.ids query = .ok ids)
    : { session with
        document := .holding stream
          ((history.wholes.map fun result => (result.entryFor query options).toJson.text)
            ++ [(result.entryFor query options).toJson.text])
          (history.wholes.length + 1)
        stats := { session.stats with
          serialized := session.stats.serialized + (result.entryFor query options).shown }
        usedWhole := true : Session }.Tracks query options stream
          (history ++ [(.whole result, .done)]) := by
  have wholes : History.wholes (history ++ [(.whole result, .done)])
      = history.wholes ++ [result] := by
    simp [History.wholes]
  have accepted : History.accepted (history ++ [(.whole result, .done)]) = [] := by
    rw [History.accepted_append, unshared]
    rfl
  have ledger : History.ledger (history ++ [(.whole result, .done)]) query
      = history.ledger query := by
    rw [History.ledger, accepted, History.ledger, unshared]
  exact {
    asked := tracks.asked
    configured := tracks.configured
    closing := tracks.closing
    usedWhole := by simp [wholes]
    usedShards := by simp [tracks.usedShards, accepted, unshared]
    exclusive := .inr accepted
    resolved := by
      intro other member
      rw [wholes] at member
      rcases List.mem_append.mp member with before | last
      · exact tracks.resolved other before
      · exact ⟨ids, by rw [List.mem_singleton.mp last, known]⟩
    accepted := by simp [accepted]
    shards := ledger ▸ tracks.shards
    document := by simp [wholes]
    serialized := by simp [wholes, tracks.serialized] }

theorem Tracks.whole (tracks : session.Tracks query options stream history)
    (unlimited : stream.room = none) (result : QueryResult)
    : (session.step (.whole result)).1.Tracks query options stream
        (history ++ [(.whole result, (session.step (.whole result)).2)]) := by
  have refused (cause : DeliveryError) (h : session.rendered result = .error cause)
      : (session.step (.whole result)).1.Tracks query options stream
          (history ++ [(.whole result, (session.step (.whole result)).2)]) := by
    have kept : session.step (.whole result) = (session, .failed cause) := by
      simp [step, serialize, h, Prod.map, replyOf]
    rw [kept]
    exact tracks.ignore rfl rfl session.stats.skipped
  cases used : session.usedShards with
  | true =>
      refine refused (.invalid .wholeAfterShards) ?_
      simp [Session.rendered, tracks.closing, used, bind, Except.bind, throw, throwThe,
        MonadExceptOf.throw]
  | false =>
      have rendered := tracks.rendered used result
      cases known : result.ids query with
      | error cause => exact refused cause (by rw [rendered, known]; rfl)
      | ok ids =>
          have unshared : history.accepted = [] := by
            simpa [tracks.usedShards] using used
          rw [known, Except.map] at rendered
          simp only [step, serialize, rendered, tracks.writeResult unlimited]
          exact tracks.written unshared known

/-- Without whole results a shard is answered as an offer under the window of the query. -/
theorem Tracks.filed (tracks : session.Tracks query options stream history)
    (unwhole : session.usedWhole = false) (shard : Shard)
    : session.filed shard
      = ((Offer.mk shard query.start query.stop).outcome.map fun outcome =>
          (if outcome = .accepted then
              session.shards.file shard
                (ShardTable.fragment (Offer.mk shard query.start query.stop).records)
            else session.shards, outcome)).mapError (.decoding shard.set.source) := by
  have taken := Offer.ingest_eq ⟨shard, query.start, query.stop⟩ session.shards
  rw [← taken]
  simp [Session.filed, tracks.closing, unwhole, tracks.asked]

/-- An accepted shard is the last of the ledger. -/
theorem Tracks.accept (tracks : session.Tracks query options stream history)
    (unwhole : history.wholes = []) {shard : Shard}
    (accepted : (Offer.mk shard query.start query.stop).outcome = .ok .accepted)
    : { session with
        shards := session.shards.file shard
          (ShardTable.fragment (Offer.mk shard query.start query.stop).records)
        stats := { session.stats with ingested := session.stats.ingested + 1 }
        usedShards := true : Session }.Tracks query options stream
          (history ++ [(.shard shard, .filed .accepted)]) := by
  have wholes : History.wholes (history ++ [(.shard shard, .filed .accepted)])
      = history.wholes := by
    rw [History.wholes_append, unwhole]
    rfl
  have shards : History.accepted (history ++ [(.shard shard, .filed .accepted)])
      = history.accepted ++ [shard] := by
    rw [History.accepted_append]
    rfl
  have single : History.ledger [(.shard shard, .filed .accepted)] query
      = [⟨⟨shard, query.start, query.stop⟩, accepted⟩] := by
    simp [History.ledger, History.accepted, Shard.offers, Ledger.of, Offer.filing?, accepted]
  exact {
    asked := tracks.asked
    configured := tracks.configured
    closing := tracks.closing
    usedWhole := wholes ▸ tracks.usedWhole
    usedShards := by simp [shards]
    exclusive := .inl (wholes.trans unwhole)
    resolved := wholes ▸ tracks.resolved
    accepted := by
      intro other member
      rw [shards] at member
      rcases List.mem_append.mp member with before | last
      · exact tracks.accepted other before
      · rw [List.mem_singleton.mp last, accepted]
    shards := by
      rw [History.ledger_append, single, tracks.shards]
      simp [Ledger.table, Filing.records]
    document := wholes ▸ tracks.document
    serialized := wholes ▸ tracks.serialized }

theorem Tracks.shard (tracks : session.Tracks query options stream history) (shard : Shard)
    : (session.step (.shard shard)).1.Tracks query options stream
        (history ++ [(.shard shard, (session.step (.shard shard)).2)]) := by
  -- Refusals differ in their causes, but none of them touches the session.
  have refused (cause : DeliveryError) (h : session.filed shard = .error cause)
      : (session.step (.shard shard)).1.Tracks query options stream
          (history ++ [(.shard shard, (session.step (.shard shard)).2)]) := by
    have kept : session.step (.shard shard) = (session, .failed cause) := by
      simp [Session.step, serializePartial, h, Prod.map]
    rw [kept]
    exact tracks.ignore rfl rfl session.stats.skipped
  cases used : session.usedWhole with
  | true =>
      refine refused (.invalid .shardAfterWhole) ?_
      simp [Session.filed, tracks.closing, used, bind, Except.bind, throw, throwThe,
        MonadExceptOf.throw]
  | false =>
      have filed := tracks.filed used shard
      cases answer : (Offer.mk shard query.start query.stop).outcome with
      | error cause =>
          exact refused (.decoding shard.set.source cause) (by rw [filed, answer]; rfl)
      | ok outcome =>
          simp only [answer, Except.map, Except.mapError] at filed
          simp only [Session.step, serializePartial, filed]
          cases outcome with
          | accepted =>
              have unwhole : history.wholes = [] := by
                simpa [tracks.usedWhole] using used
              exact tracks.accept unwhole answer
          | skipped => exact tracks.ignore rfl rfl _
          | empty => exact tracks.ignore rfl rfl _

/-- Every request but the one to complete is tracked. -/
theorem Tracks.step (tracks : session.Tracks query options stream history)
    (unlimited : stream.room = none) {request : Request} (more : request ≠ .complete)
    : (session.step request).1.Tracks query options stream
        (history ++ [(request, (session.step request).2)]) := by
  cases request with
  | whole result => exact tracks.whole unlimited result
  | shard shard => exact tracks.shard shard
  | complete => exact absurd rfl more

/-- Any requests but those to complete are tracked, by induction on the requests. -/
theorem Tracks.run (tracks : session.Tracks query options stream history)
    (unlimited : stream.room = none) {requests : List Request} (more : .complete ∉ requests)
    : (session.run requests).1.Tracks query options stream
        (history ++ requests.zip (session.run requests).2) := by
  induction requests generalizing session history with
  | nil => simpa [Session.run] using tracks
  | cons request rest ih =>
      have first := tracks.step unlimited fun he => more (he ▸ List.mem_cons_self ..)
      have later := ih first fun member => more (List.mem_cons_of_mem _ member)
      simpa [Session.run] using later

end Session

end SeriesWire
