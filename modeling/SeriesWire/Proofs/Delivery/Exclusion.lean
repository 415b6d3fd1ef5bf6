import SeriesWire.Proofs.Delivery.Refusals
import SeriesWire.Proofs.Delivery.Truncation
import SeriesWire.Proofs.Success

/-! A query uses one of the two ways of delivery, whatever its stream does.
The first whole result that is written shuts shards out and the first accepted shard shuts whole
results out, so a completion never has both. What was accepted stays in the table until the flush of
a completion takes it.
-/

namespace SeriesWire

open Json OnStream

-----------------------------------------------------------------------------------------
-- Slots of a table
-----------------------------------------------------------------------------------------

/-- The source and the hash under which a shard is kept. -/
def Shard.slot (shard : Shard) : String × UInt64 :=
  (shard.set.source, shard.key.hash)

namespace ShardTable

variable {table : ShardTable}

/-- The shelf of a source and a hash. -/
def shelf? (table : ShardTable) (slot : String × UInt64) : Option Shelf :=
  (table.sources.get? slot.1).bind fun shelves => shelves.get? slot.2

/-- The table has a shelf for the source and the hash. -/
def Holds (table : ShardTable) (slot : String × UInt64) : Prop :=
  (table.shelf? slot).isSome = true

instance (table : ShardTable) (slot : String × UInt64) : Decidable (table.Holds slot) :=
  inferInstanceAs (Decidable ((table.shelf? slot).isSome = true))

theorem eq_empty_of_isEmpty (h : table.isEmpty = true) : table = .empty := by
  obtain ⟨⟨entries, ascending⟩⟩ := table
  obtain rfl : entries = [] := List.isEmpty_iff.mp h
  rfl

/-- Filing gives the shard a shelf and takes none away. -/
theorem holds_file (table : ShardTable) (shard : Shard) (fragment : String)
    {slot : String × UInt64}
    : (table.file shard fragment).Holds slot ↔ slot = shard.slot ∨ table.Holds slot := by
  obtain ⟨source, hash⟩ := slot
  simp only [Holds, shelf?, file, SortedMap.get?_insert, Shard.slot, Prod.mk.injEq]
  by_cases own : source = shard.set.source
  · subst own
    by_cases same : hash = shard.key.hash
    · simp [SortedMap.get?_insert, same]
    · have others : ((table.sources.get? shard.set.source).getD .empty).get? hash
          = (table.sources.get? shard.set.source).bind fun shelves => shelves.get? hash := by
        cases table.sources.get? shard.set.source with
        | none => rfl
        | some shelves => rfl
      simp [SortedMap.get?_insert, same, others]
  · simp [own]

/-- There is nothing to flush out of an empty table. -/
theorem isEmpty_flush (registry : Registry) (writer : Writer) (h : table.isEmpty = true)
    : (table.flush registry writer).1.isEmpty = true := by
  rw [eq_empty_of_isEmpty h]
  rfl

end ShardTable

-----------------------------------------------------------------------------------------
-- One request
-----------------------------------------------------------------------------------------

/-- The accepted shards of a history are those that were answered so. -/
theorem History.mem_accepted {history : History} {shard : Shard}
    : shard ∈ history.accepted ↔ (.shard shard, .filed .accepted) ∈ history := by
  rw [accepted, List.mem_filterMap]
  constructor
  · rintro ⟨exchange, member, taken⟩
    split at taken
    · cases taken
      exact member
    · cases taken
  · intro member
    exact ⟨_, member, rfl⟩

namespace Session

variable {session : Session} {history : History}

/-- Shards were not accepted, or whole results were not written, and the flags say which. Without
accepted shards there is nothing in the table.
-/
structure Exclusive (session : Session) (history : History) : Prop where
  usedWhole : session.usedWhole = !history.wholes.isEmpty
  usedShards : session.usedShards = !history.accepted.isEmpty
  oneWay : history.wholes = [] ∨ history.accepted = []
  unfiled : history.accepted = [] → session.shards.isEmpty = true

/-- The completion of the session would take a slot out of the table: it has shards to write, its
document is open or opens, and the flush comes to the source of the slot.
-/
def Drains (session : Session) (slot : String × UInt64) : Prop :=
  session.document.state ≠ .closed
  ∧ session.usedWhole = false
  ∧ session.shards.Holds slot
  ∧ ∃ document,
      session.document.ensureOpen Document.place = (document, .ok ())
      ∧ ¬(session.shards.flush session.query.registry document.writer).1.Holds slot

/-- The completion of the session would close the document without the shards that it has. -/
def Discards (session : Session) : Prop :=
  session.document.state ≠ .closed
  ∧ session.usedWhole = true
  ∧ session.shards.isEmpty = false

theorem finish_kept (session : Session) (unresolved : Nat)
    : (session.finish unresolved).1
      = { session with document := (session.document.close (shownLogs session.query)).1 } := by
  rw [finish]
  rcases session.document.close (shownLogs session.query) with ⟨document, cause | ⟨⟩⟩
  · rfl
  · simp only
    split
    · rfl
    · rfl

/-- Shards are written once the document is open, and the table is left to the flush. -/
theorem flushShards_kept (session : Session)
    : session.flushShards.1.usedWhole = session.usedWhole
      ∧ session.flushShards.1.usedShards = session.usedShards
      ∧ (session.flushShards.1.shards = session.shards
        ∨ ∃ document,
            session.document.ensureOpen Document.place = (document, .ok ())
            ∧ session.flushShards.1.shards
              = (session.shards.flush session.query.registry document.writer).1) := by
  rw [flushShards]
  rcases session.document.ensureOpen Document.place with ⟨document, cause | ⟨⟩⟩
  · exact ⟨rfl, rfl, .inl rfl⟩
  · simp only
    rcases flushed : session.shards.flush session.query.registry document.writer
      with ⟨shards, writer, fault | count⟩
    · exact ⟨rfl, rfl, .inr ⟨document, rfl, by rw [flushed]⟩⟩
    · exact ⟨rfl, rfl, .inr ⟨document, rfl, by rw [flushed]⟩⟩

/-- A completion leaves the table alone or flushes it, and it never changes the way of delivery. -/
theorem complete_kept (session : Session)
    : session.complete.1.usedWhole = session.usedWhole
      ∧ session.complete.1.usedShards = session.usedShards
      ∧ (session.complete.1.shards = session.shards
        ∨ session.document.state ≠ .closed
          ∧ session.usedWhole = false
          ∧ ∃ document,
              session.document.ensureOpen Document.place = (document, .ok ())
              ∧ session.complete.1.shards
                = (session.shards.flush session.query.registry document.writer).1) := by
  rw [complete]
  split
  · exact ⟨rfl, rfl, .inl rfl⟩
  · rename_i unclosed
    simp only
    split
    · rw [finish_kept]
      exact ⟨rfl, rfl, .inl rfl⟩
    · rename_i pending
      have unwhole : session.usedWhole = false := by
        rw [Bool.not_eq_true, Bool.or_eq_false_iff] at pending
        exact pending.1
      obtain ⟨whole, shared, kept⟩ := flushShards_kept { session with closing := true }
      generalize flushShards { session with closing := true } = outcome at whole shared kept
      obtain ⟨after, cause | unresolved⟩ := outcome
      · exact ⟨whole, shared, kept.imp_right fun flushed => ⟨unclosed, unwhole, flushed⟩⟩
      · simp only [finish_kept]
        exact ⟨whole, shared, kept.imp_right fun flushed => ⟨unclosed, unwhole, flushed⟩⟩

/-- A whole result is written only if no shard was accepted, and otherwise nothing but the document
is touched.
-/
theorem step_whole_cases (session : Session) (result : QueryResult)
    : (session.step (.whole result)).1.shards = session.shards
      ∧ (session.step (.whole result)).1.usedShards = session.usedShards
      ∧ ((∃ cause, (session.step (.whole result)).2 = .failed cause)
          ∧ (session.step (.whole result)).1.usedWhole = session.usedWhole
        ∨ (session.step (.whole result)).2 = .done
          ∧ (session.step (.whole result)).1.usedWhole = true
          ∧ session.usedShards = false) := by
  simp only [step, serialize]
  cases rendered : session.rendered result with
  | error cause => exact ⟨rfl, rfl, .inl ⟨⟨cause, rfl⟩, rfl⟩⟩
  | ok text =>
      have unshared : session.usedShards = false := by
        rw [rendered_eq] at rendered
        split at rendered
        · cases rendered
        · split at rendered
          · cases rendered
          · rename_i unused
            exact Bool.not_eq_true _ ▸ unused
      simp only
      rcases session.document.writeResult text.source text.text with ⟨document, cause | ⟨⟩⟩
      · exact ⟨rfl, rfl, .inl ⟨⟨cause, rfl⟩, rfl⟩⟩
      · exact ⟨rfl, rfl, .inr ⟨rfl, rfl, unshared⟩⟩

/-- A shard is filed only if no whole result was written, and otherwise nothing but the statistics
is touched.
-/
theorem step_shard_cases (session : Session) (shard : Shard)
    : (session.step (.shard shard)).1.usedWhole = session.usedWhole
      ∧ ((session.step (.shard shard)).2 ≠ .filed .accepted
          ∧ (session.step (.shard shard)).1.shards = session.shards
          ∧ (session.step (.shard shard)).1.usedShards = session.usedShards
        ∨ (session.step (.shard shard)).2 = .filed .accepted
          ∧ session.usedWhole = false
          ∧ (session.step (.shard shard)).1.usedShards = true
          ∧ ∃ fragment, (session.step (.shard shard)).1.shards = session.shards.file shard fragment)
    := by
  simp only [step, serializePartial]
  rcases filed : session.filed shard with cause | ⟨shards, outcome⟩
  · exact ⟨rfl, .inl ⟨by simp, rfl, rfl⟩⟩
  · cases outcome with
    | empty => exact ⟨rfl, .inl ⟨by simp, rfl, rfl⟩⟩
    | skipped => exact ⟨rfl, .inl ⟨by simp, rfl, rfl⟩⟩
    | accepted =>
        rw [filed_eq] at filed
        split at filed
        · cases filed
        · split at filed
          · cases filed
          · rename_i unwhole
            have taken := mapError_eq_ok_iff.mp filed
            rw [Offer.ingest_eq ⟨shard, session.query.start, session.query.stop⟩] at taken
            obtain ⟨outcome, -, filing⟩ := map_eq_ok_iff.mp taken
            obtain ⟨table, rfl⟩ := Prod.mk.inj filing
            exact ⟨rfl, .inr ⟨rfl, Bool.not_eq_true _ ▸ unwhole, rfl, _, table.symm⟩⟩

/-- Nothing was written or filed, and the table did not fill. -/
theorem Exclusive.idle (exclusive : session.Exclusive history) {next : Session} {request : Request}
    {reply : Reply} (unwritten : History.wholes [(request, reply)] = [])
    (unfiled : History.accepted [(request, reply)] = [])
    (whole : next.usedWhole = session.usedWhole) (shared : next.usedShards = session.usedShards)
    (shards : session.shards.isEmpty = true → next.shards.isEmpty = true)
    : next.Exclusive (history ++ [(request, reply)]) := by
  have wholes : History.wholes (history ++ [(request, reply)]) = history.wholes := by
    rw [History.wholes_append, unwritten, List.append_nil]
  have accepted : History.accepted (history ++ [(request, reply)]) = history.accepted := by
    rw [History.accepted_append, unfiled, List.append_nil]
  constructor
  · rw [whole, wholes, exclusive.usedWhole]
  · rw [shared, accepted, exclusive.usedShards]
  · rw [wholes, accepted]
    exact exclusive.oneWay
  · intro none
    rw [accepted] at none
    exact shards (exclusive.unfiled none)

theorem Exclusive.whole (exclusive : session.Exclusive history) (result : QueryResult)
    : (session.step (.whole result)).1.Exclusive
        (history ++ [(.whole result, (session.step (.whole result)).2)]) := by
  obtain ⟨shards, shared, outcome⟩ := step_whole_cases session result
  rcases outcome with ⟨⟨cause, failed⟩, whole⟩ | ⟨done, whole, unshared⟩
  · rw [failed]
    exact exclusive.idle rfl rfl whole shared fun empty => shards ▸ empty
  · have none : history.accepted = [] := by
      simpa [exclusive.usedShards] using unshared
    rw [done]
    constructor
    · simp [whole, History.wholes]
    · rw [shared, unshared, History.accepted_append, none]
      rfl
    · rw [History.accepted_append, none]
      exact .inr rfl
    · intro _
      rw [shards]
      exact exclusive.unfiled none

theorem Exclusive.shard (exclusive : session.Exclusive history) (shard : Shard)
    : (session.step (.shard shard)).1.Exclusive
        (history ++ [(.shard shard, (session.step (.shard shard)).2)]) := by
  obtain ⟨whole, outcome⟩ := step_shard_cases session shard
  rcases outcome with ⟨idle, shards, shared⟩ | ⟨filed, unwhole, shared, fragment, shards⟩
  · have unfiled : History.accepted [(.shard shard, (session.step (.shard shard)).2)] = [] := by
      refine List.filterMap_eq_nil_iff.mpr fun exchange member => ?_
      obtain rfl := List.mem_singleton.mp member
      generalize (session.step (.shard shard)).2 = reply at idle
      rcases reply with _ | (_ | _ | _) | _
      · rfl
      · rfl
      · rfl
      · exact absurd rfl idle
      · rfl
    exact exclusive.idle rfl unfiled whole shared fun empty => shards ▸ empty
  · have none : history.wholes = [] := by
      simpa [exclusive.usedWhole] using unwhole
    rw [filed]
    constructor
    · rw [whole, unwhole, History.wholes_append, none]
      rfl
    · simp [shared, History.accepted]
    · rw [History.wholes_append, none]
      exact .inl rfl
    · simp [History.accepted]

theorem Exclusive.complete (exclusive : session.Exclusive history)
    : (session.step .complete).1.Exclusive
        (history ++ [(.complete, (session.step .complete).2)]) := by
  obtain ⟨whole, shared, shards⟩ := complete_kept session
  refine exclusive.idle rfl rfl whole shared fun empty => ?_
  rcases shards with same | ⟨_, _, document, _, flushed⟩
  · exact same ▸ empty
  · exact flushed ▸ ShardTable.isEmpty_flush session.query.registry document.writer empty

/-- A request keeps to the way of delivery, by the kinds of requests. -/
theorem Exclusive.step (exclusive : session.Exclusive history) (request : Request)
    : (session.step request).1.Exclusive (history ++ [(request, (session.step request).2)]) := by
  cases request with
  | whole result => exact exclusive.whole result
  | shard shard => exact exclusive.shard shard
  | complete => exact exclusive.complete

/-- An accepted shard has its slot in the table. -/
theorem holds_of_accepted {shard : Shard}
    (accepted : (session.step (.shard shard)).2 = .filed .accepted)
    : (session.step (.shard shard)).1.shards.Holds shard.slot := by
  obtain ⟨_, ⟨idle, _⟩ | ⟨_, _, _, fragment, shards⟩⟩ := step_shard_cases session shard
  · exact absurd accepted idle
  · rw [shards]
    exact (ShardTable.holds_file session.shards shard fragment).mpr (.inl rfl)

/-- A slot stays in the table unless a completion drains it, by the kinds of requests. -/
theorem holds_or_drains {slot : String × UInt64} (held : session.shards.Holds slot)
    (request : Request)
    : (session.step request).1.shards.Holds slot ∨ request = .complete ∧ session.Drains slot := by
  cases request with
  | whole result =>
      obtain ⟨shards, _⟩ := step_whole_cases session result
      exact .inl (shards ▸ held)
  | shard shard =>
      obtain ⟨_, ⟨_, shards, _⟩ | ⟨_, _, _, fragment, shards⟩⟩ := step_shard_cases session shard
      · exact .inl (shards ▸ held)
      · rw [shards]
        exact .inl ((ShardTable.holds_file session.shards shard fragment).mpr (.inr held))
  | complete =>
      obtain ⟨_, _, same | ⟨unclosed, unwhole, document, opened, flushed⟩⟩ := complete_kept session
      · exact .inl (same ▸ held)
      · by_cases kept : session.complete.1.shards.Holds slot
        · exact .inl kept
        · rw [flushed] at kept
          exact .inr ⟨rfl, unclosed, unwhole, held, document, opened, kept⟩

-----------------------------------------------------------------------------------------
-- Runs
-----------------------------------------------------------------------------------------

/-- Requests that were made of a session one after the other lead to another. Between two of them
its stream may turn into any other, and its registry too. A request stops at the first write that
fails, so what it does depends on how much its stream takes from then on, and streams that fail and
recover are covered.
-/
inductive Leads (first : Session) : History → Session → Prop
  | refl : first.Leads [] first
  | request {history : History} {session : Session} (before : first.Leads history session)
      (request : Request)
    : first.Leads (history ++ [(request, (session.step request).2)]) (session.step request).1
  | meanwhile {history : History} {session : Session} (before : first.Leads history session)
      (stream : Stream) (registry : Registry)
    : first.Leads history
        { onto session stream with query := { session.query with registry := registry } }

variable {first : Session} {query : Query} {options : Options} {stream : Stream}

/-- A run leads to its last session, by induction on the requests. -/
theorem Leads.run (leads : first.Leads history session) (requests : List Request)
    : first.Leads (history ++ requests.zip (session.run requests).2) (session.run requests).1 := by
  induction requests generalizing history session with
  | nil => simpa [Session.run] using leads
  | cons request rest ih =>
      have later := ih (leads.request request)
      rwa [List.append_assoc] at later

/-- Whatever is led to keeps to the way of delivery, by induction on what happens. -/
theorem Leads.exclusive (started : start query options stream = .ok first)
    (leads : first.Leads history session)
    : session.Exclusive history := by
  induction leads with
  | refl =>
      unfold Session.start at started
      split at started
      · cases started
      · cases started
        exact ⟨rfl, rfl, .inl rfl, fun _ => rfl⟩
  | request before request ih => exact ih.step request
  | meanwhile before stream registry ih =>
      exact ⟨ih.usedWhole, ih.usedShards, ih.oneWay, ih.unfiled⟩

/-- The slot of a shard was drained by a completion behind the acceptance of the shard. -/
def Drained (first : Session) (history : History) (last : Session) (shard : Shard) : Prop :=
  ∃ before session after,
    history = before ++ (.complete, (session.step .complete).2) :: after
    ∧ shard ∈ History.accepted before
    ∧ first.Leads before session
    ∧ session.Drains shard.slot
    ∧ (session.step .complete).1.Leads after last

/-- The slot of an accepted shard is in the table until it is drained, by induction on what happens.
-/
theorem Leads.holds_or_drained (leads : first.Leads history session) {shard : Shard}
    (accepted : shard ∈ history.accepted)
    : session.shards.Holds shard.slot ∨ first.Drained history session shard := by
  induction leads with
  | refl => cases accepted
  | @request history session before request ih =>
      rw [History.accepted_append, List.mem_append] at accepted
      rcases accepted with earlier | now
      · rcases ih earlier with held | ⟨past, middle, after, rfl, filed, reached, drains, onward⟩
        · rcases holds_or_drains held request with kept | ⟨rfl, drains⟩
          · exact .inl kept
          · exact .inr ⟨history, session, [], rfl, earlier, before, drains, .refl⟩
        · refine .inr ⟨past, middle, after ++ [(request, (session.step request).2)], ?_, filed,
            reached, drains, onward.request request⟩
          rw [List.append_assoc, List.cons_append]
      · obtain ⟨rfl, filed⟩ := Prod.mk.inj (List.mem_singleton.mp (History.mem_accepted.mp now))
        exact .inl (holds_of_accepted filed.symm)
  | meanwhile before stream registry ih =>
      rcases ih accepted with held | ⟨past, middle, after, split, filed, reached, drains, onward⟩
      · exact .inl held
      · exact .inr ⟨past, middle, after, split, filed, reached, drains,
          onward.meanwhile stream registry⟩

/-- In every session that comes of a query, the flags say which of the two ways was used. Once a
whole result was written there are no shards, and once a shard was accepted every whole result is
refused and nothing changes. So no completion drops shards, and an accepted one keeps its slot in
the table until a flush drains it.
-/
theorem modes_exclusive (started : start query options stream = .ok first)
    (leads : first.Leads history session)
    : session.usedWhole = !history.wholes.isEmpty
      ∧ session.usedShards = !history.accepted.isEmpty
      ∧ (session.usedWhole = true → session.usedShards = false ∧ session.shards = .empty)
      ∧ (history.accepted ≠ [] →
          ∀ result, ∃ cause, session.step (.whole result) = (session, .failed cause))
      ∧ ¬session.Discards
      ∧ ∀ shard ∈ history.accepted,
          session.shards.Holds shard.slot ∨ first.Drained history session shard := by
  have exclusive := leads.exclusive started
  have alone : session.usedWhole = true → session.usedShards = false ∧ session.shards = .empty := by
    intro whole
    have unaccepted : history.accepted = [] := by
      refine exclusive.oneWay.resolve_left ?_
      simpa [exclusive.usedWhole] using whole
    refine ⟨?_, ShardTable.eq_empty_of_isEmpty (exclusive.unfiled unaccepted)⟩
    rw [exclusive.usedShards, unaccepted]
    rfl
  have refused : history.accepted ≠ [] →
      ∀ result, ∃ cause, session.step (.whole result) = (session, .failed cause) := by
    intro accepted result
    have shared : session.usedShards = true := by
      simpa [exclusive.usedShards] using accepted
    have unrendered : ∃ cause, session.rendered result = .error cause := by
      rw [rendered_eq, shared]
      split
      · exact ⟨_, rfl⟩
      · exact ⟨_, rfl⟩
    obtain ⟨cause, failed⟩ := unrendered
    exact ⟨cause, by simp only [step, serialize, failed, Prod.map, replyOf, id]⟩
  refine ⟨exclusive.usedWhole, exclusive.usedShards, alone, refused, ?_, ?_⟩
  · rintro ⟨_, whole, filled⟩
    rw [(alone whole).2] at filled
    cases filled
  · intro shard accepted
    exact leads.holds_or_drained accepted

/-- A shard, a whole result and a completion. -/
def crossing : List Request :=
  [.shard (Offer.single 7 30 (.int 5)).shard, .whole ⟨"m1", "sys", .other, none, none, []⟩,
    .complete]

/-- The shard shuts the whole result out, and the stream breaks inside of what the completion
writes: the slot of the shard is drained all the same, and nothing is dropped.
-/
theorem modes_exclusive_broken
    : ∃ first,
        start .firstMinute .standard (.limited 40) = .ok first
        ∧ (first.run crossing).2
          = [.filed .accepted, .failed (.invalid .wholeAfterShards),
              .failed (.serialization shardsPlace .broken)]
        ∧ ¬(first.run crossing).1.Discards
        ∧ first.Drained (crossing.zip (first.run crossing).2) (first.run crossing).1
            (Offer.single 7 30 (.int 5)).shard := by
  obtain ⟨first, started, answered, emptied⟩ : ∃ first,
      start .firstMinute .standard (.limited 40) = .ok first
      ∧ (first.run crossing).2
        = [.filed .accepted, .failed (.invalid .wholeAfterShards),
            .failed (.serialization shardsPlace .broken)]
      ∧ ¬(first.run crossing).1.shards.Holds (Offer.single 7 30 (.int 5)).shard.slot := by
    refine ⟨_, rfl, ?_, ?_⟩
    · decide +kernel
    · decide +kernel
  obtain ⟨_, _, _, _, undiscarded, kept⟩ := modes_exclusive started (Leads.refl.run crossing)
  refine ⟨first, started, answered, undiscarded, (kept _ ?_).resolve_left emptied⟩
  rw [answered]
  exact History.mem_accepted.mpr (by simp [crossing])

end Session

end SeriesWire
