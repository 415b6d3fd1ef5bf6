import SeriesWire.Proofs.Delivery.Completion

/-! Sessions that are given only shards or only whole results.
Each request is then answered by itself, so the history of the session is known beforehand, and the
document with it.
-/

namespace SeriesWire

open Json

/-- What a session answers to a shard, unless it takes none. -/
def Offer.reply (offer : Offer) : Reply :=
  match offer.outcome with
  | .ok outcome => .filed outcome
  | .error cause => .failed (.decoding offer.shard.set.source cause)

namespace History

/-- A shard that is answered as an offer goes into the ledger if it is accepted. -/
theorem ledger_shard (query : Query) (shard : Shard)
    : ledger [(.shard shard, (Offer.mk shard query.start query.stop).reply)] query
      = .of [⟨shard, query.start, query.stop⟩] := by
  cases answer : (Offer.mk shard query.start query.stop).outcome with
  | error cause =>
      simp [ledger, accepted, Shard.offers, Ledger.of, Offer.filing?, Offer.reply, answer]
  | ok outcome =>
      cases outcome <;>
        simp [ledger, accepted, Shard.offers, Ledger.of, Offer.filing?, Offer.reply, answer]

/-- Shards that are answered as offers make the ledger of these, by induction on the shards. -/
theorem ledger_shards (query : Query) (shards : List Shard)
    : ledger
        ((shards.map Request.shard).zip
          ((Shard.offers query.start query.stop shards).map Offer.reply)) query
      = .of (Shard.offers query.start query.stop shards) := by
  induction shards with
  | nil => rfl
  | cons shard rest ih =>
      have split := ledger_append [(.shard shard, (Offer.mk shard query.start query.stop).reply)]
        ((rest.map Request.shard).zip
          ((Shard.offers query.start query.stop rest).map Offer.reply)) query
      rw [ledger_shard, ih] at split
      refine split.trans ?_
      rw [Ledger.of, Ledger.of, ← List.filterMap_append]
      rfl

theorem wholes_shards (shards : List Shard) (replies : List Reply)
    : wholes ((shards.map Request.shard).zip replies) = [] := by
  refine List.filterMap_eq_nil_iff.mpr ?_
  rintro ⟨request, reply⟩ member
  obtain ⟨shard, _, rfl⟩ := List.mem_map.mp (List.of_mem_zip member).1
  rfl

theorem wholes_wholes (results : List QueryResult)
    : wholes ((results.map Request.whole).zip (results.map fun _ => .done)) = results := by
  rw [List.zip_map', wholes, List.filterMap_map]
  exact List.filterMap_some

theorem accepted_wholes (results : List QueryResult) (replies : List Reply)
    : accepted ((results.map Request.whole).zip replies) = [] := by
  refine List.filterMap_eq_nil_iff.mpr ?_
  rintro ⟨request, reply⟩ member
  obtain ⟨result, _, rfl⟩ := List.mem_map.mp (List.of_mem_zip member).1
  rfl

end History

namespace Session

theorem run_cons (session : Session) (request : Request) (rest : List Request)
    : session.run (request :: rest)
      = (((session.step request).1.run rest).1,
          (session.step request).2 :: ((session.step request).1.run rest).2) :=
  rfl

/-- Requests in two parts are made one part after the other, by induction on the first part. -/
theorem run_append (session : Session) (requests more : List Request)
    : session.run (requests ++ more)
      = (((session.run requests).1.run more).1,
          (session.run requests).2 ++ ((session.run requests).1.run more).2) := by
  induction requests generalizing session with
  | nil => rfl
  | cons request rest ih => simp [run_cons, ih]

variable {session : Session} {query : Query} {options : Options} {stream : Stream}
  {history : History}

/-- Without whole results a shard is answered as an offer. -/
theorem Tracks.reply_shard (tracks : session.Tracks query options stream history)
    (unwhole : history.wholes = []) (shard : Shard)
    : (session.step (.shard shard)).2 = (Offer.mk shard query.start query.stop).reply := by
  have unused : session.usedWhole = false := by
    rw [tracks.usedWhole, unwhole]
    rfl
  have filed := tracks.filed unused shard
  rw [Offer.reply]
  cases answer : (Offer.mk shard query.start query.stop).outcome with
  | error cause => simp [Session.step, serializePartial, filed, answer, Except.map, Except.mapError]
  | ok outcome =>
      cases outcome <;>
        simp [Session.step, serializePartial, filed, answer, Except.map, Except.mapError]

/-- Shards alone are answered as offers, by induction on them. -/
theorem Tracks.replies_shards (tracks : session.Tracks query options stream history)
    (unwhole : history.wholes = []) (shards : List Shard)
    : (session.run (shards.map .shard)).2
      = (Shard.offers query.start query.stop shards).map Offer.reply := by
  induction shards generalizing session history with
  | nil => rfl
  | cons shard rest ih =>
      have next := ih (tracks.shard shard) (by rw [History.wholes_append, unwhole]; rfl)
      rw [List.map_cons, run_cons, tracks.reply_shard unwhole, next]
      rfl

/-- Without accepted shards a whole result is written if its identities resolve. -/
theorem Tracks.reply_whole (tracks : session.Tracks query options stream history)
    (unlimited : stream.room = none) (unshared : history.accepted = []) {result : QueryResult}
    {ids : List SeriesName} (known : result.ids query = .ok ids)
    : (session.step (.whole result)).2 = .done := by
  have unused : session.usedShards = false := by
    rw [tracks.usedShards, unshared]
    rfl
  have rendered := tracks.rendered unused result
  rw [known, Except.map] at rendered
  simp [Session.step, serialize, rendered, tracks.writeResult unlimited, replyOf]

/-- Whole results alone are written if their identities resolve, by induction on them. -/
theorem Tracks.replies_wholes (tracks : session.Tracks query options stream history)
    (unlimited : stream.room = none) (unshared : history.accepted = [])
    {results : List QueryResult} (known : ∀ result ∈ results, ∃ ids, result.ids query = .ok ids)
    : (session.run (results.map .whole)).2 = results.map fun _ => .done := by
  induction results generalizing session history with
  | nil => rfl
  | cons result rest ih =>
      obtain ⟨ids, resolved⟩ := known result (by simp)
      have next := ih (tracks.whole unlimited result)
        (by rw [History.accepted_append, unshared]; rfl) fun other member =>
          known other (by simp [member])
      rw [List.map_cons, run_cons, tracks.reply_whole unlimited unshared resolved, next]
      rfl

/-- A completed session leaves the document of its history behind. -/
theorem Tracks.run_complete_document (tracks : session.Tracks query options stream [])
    (unlimited : stream.room = none) {requests : List Request} (more : .complete ∉ requests)
    {replies : List Reply} (answered : (session.run requests).2 = replies)
    (resolved : History.unresolved (requests.zip replies) query = 0)
    : (session.run (requests ++ [.complete])).2 = replies ++ [.done]
      ∧ (session.run (requests ++ [.complete])).1.document
        = .closedWith stream
            ((History.entries (requests.zip replies) query options).map fun entry =>
              entry.toJson.text) (shownLogs query) := by
  have before := tracks.run unlimited more
  rw [List.nil_append, answered] at before
  have completes := before.complete unlimited
  rw [run_append, answered]
  simp [Session.run, Session.step, completes, resolved, completed, replyOf]

end Session

end SeriesWire
