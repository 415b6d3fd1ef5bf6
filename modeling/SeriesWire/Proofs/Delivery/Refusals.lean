import SeriesWire.Proofs.Delivery.Replies

/-! Requests that fail or are skipped may as well not have been made.
On a stream that never breaks a session either still takes requests, and then its history determines
it, or it is closed. In both states a refused request leaves it as it was, and a skipped shard
leaves a mark in the statistics and nothing else.
-/

namespace SeriesWire

open Json

namespace History

/-- Nothing was taken: a result or a shard was refused, or the shard carried nothing for the query.
A completion counts whatever its reply is.
-/
def idle : Request × Reply → Bool
  | (.whole _, .failed _) => true
  | (.shard _, .failed _) => true
  | (.shard _, .filed .empty) => true
  | (.shard _, .filed .skipped) => true
  | _ => false

/-- The history without the requests from which nothing was taken. -/
def effective (history : History) : History :=
  history.filter fun exchange => !idle exchange

/-- Why whole results are refused on a stream that never breaks. -/
def RefusesWhole (cause : DeliveryError) : Prop :=
  cause = .closed ∨ (∃ argument, cause = .invalid argument) ∨ ∃ failure, cause = .resolution failure

/-- Why shards are refused. -/
def RefusesShard (cause : DeliveryError) : Prop :=
  cause = .closed ∨ (∃ argument, cause = .invalid argument)
    ∨ ∃ source failure, cause = .decoding source failure

/-- The causes of all refusals in a history are those that results and shards have. -/
structure Explained (history : History) : Prop where
  wholes : ∀ result cause, (.whole result, .failed cause) ∈ history → RefusesWhole cause
  shards : ∀ shard cause, (.shard shard, .failed cause) ∈ history → RefusesShard cause

end History

namespace Session

-----------------------------------------------------------------------------------------
-- The count of skipped shards
-----------------------------------------------------------------------------------------

/-- A session without its count of skipped shards. -/
def unskipped (session : Session) : Session :=
  { session with stats := { session.stats with skipped := 0 } }

theorem finish_unskipped (session : Session) (unresolved : Nat)
    : session.unskipped.finish unresolved
      = ((session.finish unresolved).1.unskipped, (session.finish unresolved).2) := by
  simp only [finish, unskipped]
  rcases session.document.close (shownLogs session.query) with ⟨document, cause | ⟨⟩⟩
  · rfl
  · by_cases strict : 0 < unresolved ∧ session.options.strictIds
    · simp [strict]
    · simp [strict]

theorem flushShards_unskipped (session : Session)
    : session.unskipped.flushShards
      = (session.flushShards.1.unskipped, session.flushShards.2) := by
  simp only [flushShards, unskipped]
  rcases session.document.ensureOpen Document.place with ⟨document, cause | ⟨⟩⟩
  · rfl
  · simp only
    cases (session.shards.flush session.query.registry document.writer).2.2 with
    | error fault => rfl
    | ok count => rfl

theorem complete_unskipped (session : Session)
    : session.unskipped.complete = (session.complete.1.unskipped, session.complete.2) := by
  by_cases closed : session.document.state = .closed
  · have known : session.unskipped.document.state = .closed := closed
    rw [complete, complete, if_pos closed, if_pos known]
  · have known : session.unskipped.document.state ≠ .closed := closed
    rw [complete, complete, if_neg closed, if_neg known]
    have closing : { session.unskipped with closing := true }
        = Session.unskipped { session with closing := true } := rfl
    simp only [closing, flushShards_unskipped, finish_unskipped]
    by_cases idle : (session.usedWhole || session.shards.isEmpty) = true
    · have same : (session.unskipped.usedWhole || session.unskipped.shards.isEmpty) = true := idle
      simp only [if_pos idle, if_pos same]
    · have same : ¬ (session.unskipped.usedWhole || session.unskipped.shards.isEmpty) = true := idle
      simp only [if_neg idle, if_neg same]
      rcases flushShards { session with closing := true } with ⟨flushed, cause | unresolved⟩
      · rfl
      · exact finish_unskipped flushed unresolved

/-- Nothing but a skipped shard looks at the count, and it only raises it. -/
theorem step_unskipped (session : Session) {request : Request}
    (counts : History.idle (request, (session.step request).2) = false)
    : session.unskipped.step request
      = ((session.step request).1.unskipped, (session.step request).2) := by
  cases request with
  | whole result =>
      have same : session.unskipped.rendered result = session.rendered result := rfl
      simp only [step, serialize, same]
      rcases session.rendered result with cause | text
      · rfl
      · simp only [unskipped]
        rcases session.document.writeResult text.source text.text with ⟨document, cause | ⟨⟩⟩
        · rfl
        · rfl
  | shard shard =>
      have same : session.unskipped.filed shard = session.filed shard := rfl
      simp only [step, serializePartial, same] at counts ⊢
      rcases filed : session.filed shard with cause | ⟨shards, outcome⟩
      · rfl
      · rw [filed] at counts
        cases outcome with
        | accepted => rfl
        | empty => cases counts
        | skipped => cases counts
  | complete =>
      simp only [step, complete_unskipped]
      rfl

-----------------------------------------------------------------------------------------
-- Refusals
-----------------------------------------------------------------------------------------

variable {session : Session} {query : Query} {options : Options} {stream : Stream}
  {history : History}

/-- A session on a stream that never breaks takes requests, or it is closed for good. -/
inductive Settled (session : Session) (query : Query) (options : Options) (stream : Stream) : Prop
  | tracking {history : History} (tracks : session.Tracks query options stream history)
  | closed (closing : session.closing = true) (closed : session.document.state = .closed)

/-- A request leaves a settled session settled: only a completion closes it. -/
theorem Settled.step (settled : session.Settled query options stream)
    (unlimited : stream.room = none) (request : Request)
    : (session.step request).1.Settled query options stream := by
  cases settled with
  | tracking tracks =>
      cases request with
      | whole result => exact .tracking (tracks.whole unlimited result)
      | shard shard => exact .tracking (tracks.shard shard)
      | complete =>
          have completes := tracks.complete unlimited
          refine .closed ?_ ?_ <;> simp [Session.step, completes, completed, Document.closedWith]
  | closed closing closed =>
      have refused := congrArg Prod.fst (run_of_closed closing closed [request])
      have kept : (session.step request).1 = session := refused
      rw [kept]
      exact .closed closing closed

/-- A shard is taken unless the session is closing or has used whole results. -/
theorem filed_eq (session : Session) (shard : Shard)
    : session.filed shard
      = if session.closing then .error .closed
        else if session.usedWhole then .error (.invalid .shardAfterWhole)
        else
          (session.shards.ingest shard session.query.start session.query.stop).mapError
            (.decoding shard.set.source) := by
  unfold Session.filed
  cases session.closing with
  | true => rfl
  | false => cases session.usedWhole <;> rfl

theorem refusesShard_of_filed {shard : Shard} {cause : DeliveryError}
    (failed : session.filed shard = .error cause)
    : History.RefusesShard cause := by
  rw [filed_eq] at failed
  split at failed
  · exact .inl (Except.error.inj failed).symm
  · split at failed
    · exact .inr (.inl ⟨_, (Except.error.inj failed).symm⟩)
    · cases ingested : session.shards.ingest shard session.query.start session.query.stop with
      | ok answer => simp [ingested, Except.mapError] at failed
      | error failure =>
          rw [ingested] at failed
          exact .inr (.inr ⟨_, _, (Except.error.inj failed).symm⟩)

/-- A shard that is refused, for whatever reason, leaves no trace at all: nothing is filed, no flag
is set and nothing is counted. That holds of every session, whatever its stream did before.
-/
theorem step_shard_failed {shard : Shard} {after : Session} {cause : DeliveryError}
    (failed : session.step (.shard shard) = (after, .failed cause))
    : after = session ∧ History.RefusesShard cause := by
  simp only [Session.step, serializePartial] at failed
  cases filed : session.filed shard with
  | error other =>
      rw [filed] at failed
      obtain ⟨rfl, same⟩ := Prod.mk.inj failed
      exact ⟨rfl, Reply.failed.inj same ▸ refusesShard_of_filed filed⟩
  | ok answer =>
      obtain ⟨shards, outcome⟩ := answer
      rw [filed] at failed
      cases outcome <;> simp [Prod.map] at failed

/-- A whole result is taken unless the session is closing or has used shards, and then its
identities have to resolve. Rendering never fails.
-/
theorem rendered_eq (session : Session) (result : QueryResult)
    : session.rendered result
      = if session.closing then .error .closed
        else if session.usedShards then .error (.invalid .wholeAfterShards)
        else (result.ids session.query).map fun _ =>
          ⟨result.source, (result.entryFor session.query session.options).toJson.text,
            (result.entryFor session.query session.options).shown⟩ := by
  unfold Session.rendered
  cases session.closing with
  | true => rfl
  | false =>
      cases session.usedShards with
      | true => rfl
      | false =>
          cases known : result.ids session.query with
          | error cause =>
              simp only [QueryResult.ids] at known
              simp [known, bind, Except.bind, Except.map]
          | ok ids =>
              have rendered := QueryResult.render_eq_entryFor known session.options
              simp only [QueryResult.ids] at known
              simp [known, rendered, bind, Except.bind, Except.map]

theorem refusesWhole_of_rendered {result : QueryResult} {cause : DeliveryError}
    (failed : session.rendered result = .error cause)
    : History.RefusesWhole cause := by
  rw [rendered_eq] at failed
  split at failed
  · exact .inl (Except.error.inj failed).symm
  · split at failed
    · exact .inr (.inl ⟨_, (Except.error.inj failed).symm⟩)
    · cases known : result.ids session.query with
      | ok ids => simp [known, Except.map] at failed
      | error other =>
          rw [known] at failed
          obtain rfl : other = cause := Except.error.inj failed
          rw [QueryResult.ids, QueryResult.resolve] at known
          split at known
          · exact .inr (.inl ⟨_, (Except.error.inj known).symm⟩)
          · cases read : result.series.mapM fun (series : Series) =>
                series.id.resolve session.query.resolver with
            | ok names => simp [read, Except.mapError] at known
            | error failure =>
                rw [read] at known
                exact .inr (.inr ⟨_, (Except.error.inj known).symm⟩)

/-- On a stream that never breaks a whole result fails before anything is written. -/
theorem Settled.step_whole_failed (settled : session.Settled query options stream)
    (unlimited : stream.room = none) {result : QueryResult} {after : Session}
    {cause : DeliveryError} (failed : session.step (.whole result) = (after, .failed cause))
    : after = session ∧ History.RefusesWhole cause := by
  cases settled with
  | closed closing closed =>
      have refused := run_of_closed closing closed [.whole result]
      simp only [failed, Session.run, Prod.mk.injEq, List.map_cons, List.map_nil,
        List.cons.injEq, and_true, Reply.failed.injEq] at refused
      exact ⟨refused.1, .inl refused.2⟩
  | tracking tracks =>
      simp only [Session.step, serialize] at failed
      cases rendered : session.rendered result with
      | error other =>
          rw [rendered] at failed
          obtain ⟨rfl, same⟩ := Prod.mk.inj failed
          exact ⟨rfl, Reply.failed.inj same ▸ refusesWhole_of_rendered rendered⟩
      | ok text => simp [rendered, tracks.writeResult unlimited, Prod.map, replyOf] at failed

/-- A request from which nothing was taken leaves a mark at most in the count of skipped shards. -/
theorem Settled.step_idle (settled : session.Settled query options stream)
    (unlimited : stream.room = none) {request : Request}
    (idle : History.idle (request, (session.step request).2))
    : (session.step request).1.unskipped = session.unskipped := by
  cases request with
  | whole result =>
      rcases stepped : session.step (.whole result) with ⟨after, _ | _ | cause⟩
      · simp [stepped, History.idle] at idle
      · simp [stepped, History.idle] at idle
      · rw [(settled.step_whole_failed unlimited stepped).1]
  | shard shard =>
      rcases filed : session.filed shard with cause | ⟨shards, outcome⟩
      · simp [Session.step, serializePartial, filed]
      · cases outcome with
        | accepted => simp [Session.step, serializePartial, filed, History.idle] at idle
        | empty => simp [Session.step, serializePartial, filed, unskipped]
        | skipped => simp [Session.step, serializePartial, filed, unskipped]
  | complete => simp [History.idle] at idle

/-- The refused and skipped requests of a run may be left out, by induction on the requests: each of
them leaves the session as it was, and the others do not look at what it counted.
-/
theorem Settled.run_effective (settled : session.Settled query options stream)
    (unlimited : stream.room = none) (requests : List Request)
    : session.unskipped.run
        ((History.effective (requests.zip (session.run requests).2)).map Prod.fst)
      = ((session.run requests).1.unskipped,
          (History.effective (requests.zip (session.run requests).2)).map Prod.snd) := by
  induction requests generalizing session with
  | nil => rfl
  | cons request rest ih =>
      have later := ih (settled.step unlimited request)
      rw [run_cons, List.zip_cons_cons, History.effective, List.filter_cons]
      cases idle : History.idle (request, (session.step request).2) with
      | true =>
          rw [settled.step_idle unlimited idle] at later
          exact later
      | false =>
          simp only [Bool.not_false, if_true, List.map_cons, run_cons,
            step_unskipped session idle]
          rw [← History.effective, later]

/-- Refusals have one of the known causes, by induction on the requests. -/
theorem Settled.explained (settled : session.Settled query options stream)
    (unlimited : stream.room = none) (requests : List Request)
    : History.Explained (requests.zip (session.run requests).2) := by
  induction requests generalizing session with
  | nil => exact ⟨by simp, by simp⟩
  | cons request rest ih =>
      have later := ih (settled.step unlimited request)
      rw [run_cons, List.zip_cons_cons]
      refine ⟨fun result cause member => ?_, fun shard cause member => ?_⟩
      · rcases List.mem_cons.mp member with first | behind
        · obtain ⟨rfl, reply⟩ := Prod.mk.inj first
          exact (settled.step_whole_failed unlimited (Prod.ext rfl reply.symm)).2
        · exact later.wholes result cause behind
      · rcases List.mem_cons.mp member with first | behind
        · obtain ⟨rfl, reply⟩ := Prod.mk.inj first
          exact (step_shard_failed (Prod.ext rfl reply.symm)).2
        · exact later.shards shard cause behind

/-- Requests that fail or are skipped may be left out of any run on a stream that never breaks,
whatever else is asked and in whatever order. Whole results fail only because the session is closed,
because of their arguments or because an identity does not resolve, and shards only because the
session is closed, because of their arguments or because they do not decode. The run without all of
these requests, and without the shards that carry nothing for the query, gives every other request
the same reply and leaves the same session: the same bytes on the stream, the same table, flags and
counts, except that no skipped shards are counted. A shard that fails at any point of the run leaves
the session as it was at this point, also if records in the window were read before.
-/
theorem run_without_idle (started : start query options stream = .ok session)
    (unlimited : stream.room = none) (requests : List Request)
    : ∃ last replies, ∃ history : History,
        session.run requests = (last, replies)
        ∧ history = requests.zip replies
        ∧ history.Explained
        ∧ session.run (history.effective.map Prod.fst)
          = ({ last with stats := { last.stats with skipped := 0 } },
              history.effective.map Prod.snd)
        ∧ ∀ before shard after cause,
            (session.run before).1.step (.shard shard) = (after, .failed cause)
            → after = (session.run before).1 := by
  have settled : session.Settled query options stream := .tracking (Tracks.start started)
  have unskipped : session.unskipped = session := by
    unfold start at started
    split at started
    · simp at started
    · cases started
      rfl
  have shortened := settled.run_effective unlimited requests
  rw [unskipped] at shortened
  exact ⟨_, _, _, rfl, rfl, settled.explained unlimited requests, shortened,
    fun _ _ _ _ failed => (step_shard_failed failed).1⟩

end Session

/-- A result of one series with one sample. -/
def QueryResult.single (id : SeriesId) : QueryResult where
  node := "m2"
  dataSource := "sys"
  kind := .other
  grid := none
  rollup := none
  series := [⟨id, [.numeric [⟨.ofEpoch 30, some (.int 5)⟩]]⟩]

/-- A shard with a record in the first minute and a word that is left over. -/
def Shard.cutOff : Shard :=
  { (Offer.single 7 30 (.int 5)).shard with payload := some (.ofWords [30, 5, 31]) }

namespace Session

/-- A shard that is cut off, a late one and a result that does not resolve leave whole results
possible. The run is that of the one result that was written, and of the completion.
-/
theorem run_without_idle_cutOff
    : ∃ session last,
        start .firstMinute .standard .unlimited = .ok session
        ∧ session.run
            [.shard .cutOff, .shard (Offer.single 7 90 (.int 5)).shard,
              .whole (.single (.encoded ⟨[9]⟩)), .whole (.single (.named (.ofMetric "cpu"))),
              .shard (Offer.single 7 30 (.int 5)).shard, .complete,
              .whole (.single (.named (.ofMetric "cpu")))]
          = (last,
              [.failed (.decoding "m1:sys" (.truncated 2)), .filed .skipped,
                .failed (.invalid (.missingResolver "m2:sys")), .done,
                .failed (.invalid .shardAfterWhole), .done, .failed .closed])
        ∧ session.run [.whole (.single (.named (.ofMetric "cpu"))), .complete]
          = ({ last with stats := { last.stats with skipped := 0 } }, [.done, .done]) := by
  obtain ⟨last, replies, _, ran, rfl, _, shortened, _⟩ :=
    run_without_idle (rfl : start .firstMinute .standard .unlimited = .ok _) rfl
      [.shard .cutOff, .shard (Offer.single 7 90 (.int 5)).shard,
        .whole (.single (.encoded ⟨[9]⟩)), .whole (.single (.named (.ofMetric "cpu"))),
        .shard (Offer.single 7 30 (.int 5)).shard, .complete,
        .whole (.single (.named (.ofMetric "cpu")))]
  have answered : replies
      = [.failed (.decoding "m1:sys" (.truncated 2)), .filed .skipped,
          .failed (.invalid (.missingResolver "m2:sys")), .done,
          .failed (.invalid .shardAfterWhole), .done, .failed .closed] := by
    refine (congrArg Prod.snd ran).symm.trans ?_
    decide +kernel
  subst answered
  exact ⟨_, last, rfl, ran, shortened⟩

end Session

end SeriesWire
