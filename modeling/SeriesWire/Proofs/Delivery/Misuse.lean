import SeriesWire.Proofs.Delivery.Exclusion
import SeriesWire.Proofs.Delivery.Refusals
import SeriesWire.Proofs.Delivery.Truncation
import SeriesWire.Proofs.Json.Misplacement

/-! When a document misuses its own writer.
The state of a document tells where its writer stands as long as the opening and the end are written
in one go. A stream that breaks inside of one of them, or that cannot be flushed behind the end,
leaves the two out of step, since neither is rolled back nor continued. Whatever breaks elsewhere,
the document goes on in step.
-/

namespace SeriesWire

open Json OnStream

-----------------------------------------------------------------------------------------
-- Tokens in place on a stream that may break
-----------------------------------------------------------------------------------------

/-- Tokens in place are written, or the stream breaks. They are never misplaced, by induction on
them.
-/
theorem Json.Writes.writeAll_cases {writer : Writer} {tokens : List Token} {text : String}
    {next : Cursor} (writes : Writes writer.cursor tokens text next)
    : (∃ stream, writer.writeAll tokens = (⟨stream, next⟩, .ok ()))
      ∨ ∃ after, writer.writeAll tokens = (after, .error .broken) := by
  induction tokens generalizing writer text with
  | nil =>
      obtain rfl : writer.cursor = next := (Draft.mk.inj (Except.ok.inj writes)).2
      exact .inl ⟨writer.stream, rfl⟩
  | cons token rest ih =>
      obtain ⟨p, more, planned, later, _⟩ := writes.uncons
      rw [Writer.writeAll, Writer.write, planned]
      rcases writer.carryOut_cases p.landing p.pieces with ⟨stream, taken⟩ | ⟨_, _, _, broken⟩
      · simp only [taken]
        exact @ih ⟨stream, p.landing⟩ more later
      · simp only [broken]
        exact .inr ⟨_, rfl⟩

-----------------------------------------------------------------------------------------
-- Documents
-----------------------------------------------------------------------------------------

/-- What comes of a call: it is not answered by a misuse, and it ends in step unless the stream
broke where the call frames the document.
-/
structure Fair {α : Type} (frames inStep : Prop) (answer : Except DeliveryError α) : Prop where
  placed : ∀ place misuse, answer ≠ .error (.serialization place (.misuse misuse))
  kept : inStep ∨ frames ∧ ∃ place, answer = .error (.serialization place .broken)

namespace Fair

variable {α β : Type} {frames inStep : Prop}

theorem of_broken (place : String) (kept : inStep ∨ frames)
    : Fair frames inStep (.error (.serialization place .broken) : Except DeliveryError α) := by
  refine ⟨?_, kept.imp_right fun frames => ⟨frames, place, rfl⟩⟩
  intro other misuse same
  cases same

/-- What succeeds ends in step. -/
theorem inStep_of_ok {answer : α} (fair : Fair frames inStep (.ok answer)) : inStep := by
  rcases fair.kept with kept | ⟨_, _, broken⟩
  · exact kept
  · cases broken

theorem of_ok (answer : α) (kept : inStep) : Fair frames inStep (.ok answer) :=
  ⟨nofun, .inl kept⟩

/-- An error may be passed on. -/
theorem error {cause : DeliveryError} (fair : Fair frames inStep (.error cause : Except _ α))
    : Fair frames inStep (.error cause : Except _ β) := by
  constructor
  · intro place misuse same
    exact fair.placed place misuse (congrArg Except.error (Except.error.inj same))
  · refine fair.kept.imp_right fun ⟨frames, place, broken⟩ => ⟨frames, place, ?_⟩
    exact congrArg Except.error (Except.error.inj broken)

/-- A reply that passes errors on tells as much as the answer. -/
theorem told {δ : Type} {answer : Except DeliveryError α} (fair : Fair frames inStep answer)
    {failed : DeliveryError → δ}
    (told : ∀ {cause other}, failed cause = failed other → cause = other)
    {reply : Except DeliveryError α → δ} (passes : ∀ cause, reply (.error cause) = failed cause)
    (succeeds : ∀ value cause, reply (.ok value) ≠ failed cause)
    : (¬∃ place misuse, reply answer = failed (.serialization place (.misuse misuse)))
      ∧ (inStep ∨ frames ∧ ∃ place, reply answer = failed (.serialization place .broken)) := by
  cases answer with
  | ok value => exact ⟨fun ⟨_, _, same⟩ => succeeds value _ same, .inl fair.inStep_of_ok⟩
  | error cause =>
      rw [passes]
      constructor
      · rintro ⟨place, misuse, same⟩
        exact fair.placed place misuse (congrArg Except.error (told same))
      · refine fair.kept.imp_right fun ⟨frame, place, broken⟩ => ⟨frame, place, ?_⟩
        exact congrArg failed (Except.error.inj broken)

end Fair

namespace Document

/-- Where the writer stands behind so many results. -/
def behind (count : Nat) : Cursor :=
  .amid .array count [⟨.object, 1⟩]

/-- The writer stands where the state of the document says. -/
inductive InStep : Document → Prop
  | empty (stream : Stream) : InStep ⟨⟨stream, .root⟩, .empty⟩
  | opened (stream : Stream) (count : Nat) : InStep ⟨⟨stream, behind count⟩, .opened⟩
  | closed (writer : Writer) : InStep ⟨writer, .closed⟩

variable {document : Document}

theorem InStep.onto (inStep : document.InStep) (stream : Stream)
    : InStep (onto document stream) := by
  cases inStep with
  | empty => exact .empty stream
  | opened _ count => exact .opened stream count
  | closed writer => exact .closed _

/-- A document is opened, or closed already, or its opening breaks. -/
theorem InStep.ensureOpen_cases (inStep : document.InStep) (place : String)
    : (∃ stream count,
        document.ensureOpen place = (⟨⟨stream, behind count⟩, .opened⟩, .ok ()))
      ∨ document.ensureOpen place = (document, .error .closed)
      ∨ document.state = .empty
        ∧ ∃ after, document.ensureOpen place = (after, .error (.serialization place .broken)) := by
  cases inStep with
  | empty stream =>
      rw [ensureOpen, writeAs]
      have opening : Writes (Writer.mk stream .root).cursor openingTokens _ _ :=
        writes_openingTokens
      rcases opening.writeAll_cases with ⟨next, written⟩ | ⟨after, broken⟩
      · rw [written]
        exact .inl ⟨next, 0, rfl⟩
      · rw [broken]
        exact .inr (.inr ⟨rfl, _, rfl⟩)
  | opened stream count => exact .inl ⟨stream, count, rfl⟩
  | closed writer => exact .inr (.inl rfl)

/-- A value among the results stays among them, also if the stream breaks inside of it. -/
theorem write_raw_cases (stream : Stream) (count : Nat) (text : String)
    : ∃ after later,
        (Writer.mk stream (behind count)).writeAll [.raw text] = (⟨after, behind later⟩, .ok ())
        ∨ (Writer.mk stream (behind count)).writeAll [.raw text]
          = (⟨after, behind later⟩, .error .broken) := by
  have planned : (behind count).plan (.raw text)
      = .ok (((behind count).advance ⟨.array, count⟩ [⟨.object, 1⟩]).andWrite text) :=
    rfl
  rw [Writer.writeAll_single, Writer.write, planned]
  rcases Writer.carryOut_cases (Writer.mk stream (behind count))
    (((behind count).advance ⟨.array, count⟩ [⟨.object, 1⟩]).andWrite text).landing
    (((behind count).advance ⟨.array, count⟩ [⟨.object, 1⟩]).andWrite text).pieces
    with ⟨after, accepted⟩ | ⟨piece, member, after, broken⟩
  · exact ⟨after, count + 1, .inl accepted⟩
  · have stays : piece.refused = behind count ∨ piece.refused = behind (count + 1) := by
      rcases List.mem_append.mp member with comma | value
      · by_cases first : count = 0
        · simp [Cursor.advance, first] at comma
        · simp only [Cursor.advance, first, if_false, List.mem_singleton] at comma
          exact .inl (comma ▸ rfl)
      · exact .inr (List.mem_singleton.mp value ▸ rfl)
    rcases stays with same | further
    · exact ⟨after, count, .inr (same ▸ broken)⟩
    · exact ⟨after, count + 1, .inr (further ▸ broken)⟩

theorem InStep.writeResult (inStep : document.InStep) (source text : String)
    : Fair (document.state = .empty) (document.writeResult source text).1.InStep
        (document.writeResult source text).2 := by
  rw [Document.writeResult]
  rcases inStep.ensureOpen_cases source with ⟨stream, count, opened⟩ | closed | ⟨empty, _, broken⟩
  · obtain ⟨after, later, accepted | broken⟩ := write_raw_cases stream count text
    · simp only [opened, writeAs, accepted]
      exact ⟨by simp, .inl (.opened after later)⟩
    · simp only [opened, writeAs, broken]
      exact .of_broken source (.inl (.opened after later))
  · rw [closed]
    exact ⟨by simp, .inl inStep⟩
  · rw [broken]
    exact .of_broken source (.inr empty)

theorem InStep.close (inStep : document.InStep) (logs : Option (List String))
    : Fair True (document.close logs).1.InStep (document.close logs).2 := by
  rw [Document.close]
  rcases inStep.ensureOpen_cases place with ⟨stream, count, opened⟩ | closed | ⟨_, _, broken⟩
  · have closing : Writes (Writer.mk stream (behind count)).cursor (closingTokens logs) _ _ :=
      writes_closingTokens count logs
    rcases closing.writeAll_cases with ⟨after, written⟩ | ⟨after, broken⟩
    · simp only [opened, finish, writeAs, written]
      rcases (Writer.mk after .root).flush_cases with flushed | broken
      · rw [flushed]
        exact ⟨by simp, .inl (.closed _)⟩
      · rw [broken]
        exact .of_broken place (.inr trivial)
    · simp only [opened, finish, writeAs, broken]
      exact .of_broken place (.inr trivial)
  · rw [closed]
    exact ⟨by simp, .inl inStep⟩
  · rw [broken]
    exact .of_broken place (.inr trivial)

/-- Handing out the writer opens the document. -/
theorem InStep.writeCalls (inStep : document.InStep)
    : Fair (document.state = .empty) (document.writeCalls []).1.InStep
        (document.writeCalls []).2 := by
  rw [Document.writeCalls]
  rcases inStep.ensureOpen_cases place with ⟨stream, count, opened⟩ | closed | ⟨empty, _, broken⟩
  · rw [opened]
    exact ⟨by simp, .inl (.opened stream count)⟩
  · rw [closed]
    exact ⟨by simp, .inl inStep⟩
  · rw [broken]
    exact .of_broken place (.inr empty)

end Document

-----------------------------------------------------------------------------------------
-- Shards
-----------------------------------------------------------------------------------------

namespace ShardTable

/-- A source is one more result, or none at all, whatever was collected of it. -/
theorem lists_sourceTokens_found (source : String) (found : List (SeriesName × Shelf))
    : ∃ texts, Lists (sourceTokens source found) texts := by
  by_cases silent : found.isEmpty
  · exact ⟨[], by rw [sourceTokens, if_pos silent]; exact .nil⟩
  · have data : Lists (found.flatMap fun entry => seriesTokens entry.1 entry.2) _ :=
      Lists.flatMap fun entry _ => (spells_seriesTokens_shelf entry.1 entry.2).lists
    have members := ((spells_tokens (.string source)).member "source").append
      (data.spells_array.member "data")
    have same : sourceTokens source found = _ := if_neg silent
    have spelled := members.spells_object.lists
    simp only [tokens, Json.string, List.cons_append, List.append_assoc, List.nil_append]
      at same spelled
    exact ⟨_, same ▸ spelled⟩

/-- The sources of a table are written among the results, or the stream breaks, by induction on
them.
-/
theorem flushSources_cases (registry : Registry)
    (sources : List (String × SortedMap UInt64 Shelf)) (stream : Stream) (results taken : Nat)
    (count : FlushCount)
    : ∃ number,
        (∃ after later total,
          flushSources registry sources ⟨stream, Document.behind results⟩ taken count
            = (number, ⟨after, Document.behind later⟩, .ok total))
        ∨ ∃ writer,
          flushSources registry sources ⟨stream, Document.behind results⟩ taken count
            = (number, writer, .error .broken) := by
  induction sources generalizing stream results taken count with
  | nil => exact ⟨taken, .inl ⟨stream, results, count, rfl⟩⟩
  | cons head rest ih =>
      obtain ⟨texts, listed⟩ := lists_sourceTokens_found head.1 (found registry head.2)
      obtain ⟨later, _, written⟩ := listed [⟨.object, 1⟩] results
      have inPlace : Writes (Writer.mk stream (Document.behind results)).cursor _ _ _ := written
      rw [flushSources]
      rcases inPlace.writeAll_cases with ⟨after, accepted⟩ | ⟨writer, broken⟩
      · rw [found] at accepted
        simp only [accepted]
        exact ih after later _ _
      · rw [found] at broken
        simp only [broken]
        exact ⟨_, .inr ⟨writer, rfl⟩⟩

end ShardTable

-----------------------------------------------------------------------------------------
-- Sessions
-----------------------------------------------------------------------------------------

namespace Session

variable {session : Session}

/-- A result that is refused leaves the document alone, and one that is taken is written into it. -/
theorem fair_serialize (inStep : session.document.InStep) (result : QueryResult)
    : Fair (session.document.state = .empty) (session.serialize result).1.document.InStep
        (session.serialize result).2 := by
  rw [serialize]
  cases rendered : session.rendered result with
  | error cause =>
      refine ⟨?_, .inl inStep⟩
      intro place misuse same
      obtain rfl := Except.error.inj same
      rcases refusesWhole_of_rendered rendered with other | ⟨_, other⟩ | ⟨_, other⟩
      · cases other
      · cases other
      · cases other
  | ok text =>
      have written := inStep.writeResult text.source text.text
      simp only
      generalize session.document.writeResult text.source text.text = outcome at written
      obtain ⟨document, cause | _⟩ := outcome
      · exact written
      · exact .of_ok () written.inStep_of_ok

/-- Strict identities fail a completion behind the end of the document. -/
theorem fair_finish (inStep : session.document.InStep) (unresolved : Nat)
    : Fair True (session.finish unresolved).1.document.InStep (session.finish unresolved).2 := by
  rw [finish]
  have closed := inStep.close (shownLogs session.query)
  generalize session.document.close (shownLogs session.query) = outcome at closed
  obtain ⟨document, cause | _⟩ := outcome
  · exact closed
  · have ended : document.InStep := closed.inStep_of_ok
    simp only
    split
    · exact ⟨by simp, .inl ended⟩
    · exact .of_ok () ended

/-- Shards are written among the results, and a stream that breaks inside of them leaves the writer
there.
-/
theorem fair_flushShards (inStep : session.document.InStep)
    : Fair True session.flushShards.1.document.InStep session.flushShards.2 := by
  rw [flushShards]
  rcases inStep.ensureOpen_cases Document.place
    with ⟨stream, count, opened⟩ | closed | ⟨_, after, broken⟩
  · rw [opened]
    obtain ⟨number, ⟨after, later, total, flushed⟩ | ⟨writer, broken⟩⟩ :=
      ShardTable.flushSources_cases session.query.registry session.shards.sources.entries stream
        count 0 ⟨0, 0⟩
    · simp only [ShardTable.flush, flushed]
      exact .of_ok _ (.opened after later)
    · simp only [ShardTable.flush, broken]
      exact .of_broken shardsPlace (.inr trivial)
  · rw [closed]
    exact ⟨by simp, .inl inStep⟩
  · rw [broken]
    exact .of_broken Document.place (.inr trivial)

theorem fair_complete (inStep : session.document.InStep)
    : Fair True session.complete.1.document.InStep session.complete.2 := by
  have asked : (Session.document { session with closing := true }).InStep := inStep
  rw [complete]
  split
  · exact ⟨by simp, .inl inStep⟩
  · simp only
    split
    · exact fair_finish asked 0
    · have flushed := fair_flushShards asked
      generalize flushShards { session with closing := true } = outcome at flushed
      obtain ⟨after, cause | unresolved⟩ := outcome
      · exact flushed.error
      · exact fair_finish flushed.inStep_of_ok unresolved

end Session

-----------------------------------------------------------------------------------------
-- Runs
-----------------------------------------------------------------------------------------

/-- Calls that were made one after the other lead from one state to another, while between two of
them something else may happen that is no call.
-/
inductive Reaches {σ ρ α : Type} (step : ρ → σ → σ × α) (Drifts : σ → σ → Prop) (first : σ)
    : List (ρ × α) → σ → Prop
  | refl : Reaches step Drifts first [] first
  | call {history : List (ρ × α)} {s : σ} (before : Reaches step Drifts first history s) (call : ρ)
    : Reaches step Drifts first (history ++ [(call, (step call s).2)]) (step call s).1
  | drift {history : List (ρ × α)} {s t : σ} (before : Reaches step Drifts first history s)
    (drifts : Drifts s t)
    : Reaches step Drifts first history t

section Breaking

variable {σ ρ α : Type} {step : ρ → σ → σ × α} {Drifts : σ → σ → Prop}

/-- One of the calls broke. -/
def Reaches.Broken (step : ρ → σ → σ × α) (Drifts : σ → σ → Prop) (Breaks : σ → ρ → α → Prop)
    (first : σ) (history : List (ρ × α)) (last : σ) : Prop :=
  ∃ before s call after,
    history = before ++ (call, (step call s).2) :: after
    ∧ Reaches step Drifts first before s
    ∧ Breaks s call (step call s).2
    ∧ Reaches step Drifts (step call s).1 after last

/-- Calls keep what is good, or they break it, and what else happens keeps it. So it is good at the
end unless one of the calls broke it, by induction on what happens.
-/
theorem Reaches.good_or_broken (Own : ρ → Prop) {Good : σ → Prop} {Breaks : σ → ρ → α → Prop}
    (steps : ∀ s call, Good s → Own call
      → Good (step call s).1 ∨ Breaks s call (step call s).2)
    (drifts : ∀ s t, Good s → Drifts s t → Good t) {first last : σ} (good : Good first)
    {history : List (ρ × α)} (reaches : Reaches step Drifts first history last)
    (own : ∀ exchange ∈ history, Own exchange.1)
    : Good last ∨ Reaches.Broken step Drifts Breaks first history last := by
  induction reaches with
  | refl => exact .inl good
  | @call history s before call ih =>
      have earlier := ih fun exchange member => own exchange (List.mem_append_left _ member)
      rcases earlier with kept | ⟨past, middle, other, after, rfl, reached, breaks, onward⟩
      · have here : Own call := own _ (List.mem_append_right _ List.mem_cons_self)
        rcases steps s call kept here with still | breaks
        · exact .inl still
        · exact .inr ⟨history, s, call, [], rfl, before, breaks, .refl⟩
      · refine .inr ⟨past, middle, other, after ++ [(call, (step call s).2)], ?_, reached, breaks,
          onward.call call⟩
        rw [List.append_assoc, List.cons_append]
  | @drift history s t before drifted ih =>
      rcases ih own with kept | ⟨past, middle, call, after, split, reached, breaks, onward⟩
      · exact .inl (drifts s t kept drifted)
      · exact .inr ⟨past, middle, call, after, split, reached, breaks, onward.drift drifted⟩

end Breaking

/-- Calls of a document, between two of which its stream may turn into any other. -/
def Document.Leads (first : Document) (history : List (DocumentCall × DocumentReply))
    (last : Document) : Prop :=
  Reaches (fun call document => document.step call)
    (fun document other => ∃ stream, other = onto document stream) first history last

/-- The stream of a session turned into another one, or its registry did. -/
def Session.Drifts (session other : Session) : Prop :=
  ∃ stream registry,
    other = { onto session stream with query := { session.query with registry := registry } }

theorem Session.leads_iff_reaches {first session : Session} {history : History}
    : first.Leads history session
      ↔ Reaches (fun request session => session.step request) Session.Drifts first history
          session := by
  constructor
  · intro leads
    induction leads with
    | refl => exact .refl
    | request _ request ih => exact ih.call request
    | meanwhile _ stream registry ih => exact ih.drift ⟨stream, registry, rfl⟩
  · intro reaches
    induction reaches with
    | refl => exact .refl
    | call _ request ih => exact ih.request request
    | drift _ drifts ih =>
        obtain ⟨stream, registry, rfl⟩ := drifts
        exact ih.meanwhile stream registry

/-- A reply that reports a misuse of the writer. -/
def DocumentReply.Misused (reply : DocumentReply) : Prop :=
  ∃ place misuse, reply = .failed (.serialization place (.misuse misuse))

/-- The opening or the end of a document breaks. -/
def Document.Breaks (document : Document) (call : DocumentCall) (reply : DocumentReply) : Prop :=
  (document.state = .empty ∨ ∃ logs, call = .close logs)
    ∧ ∃ place, reply = .failed (.serialization place .broken)

/-- The call is one of the document itself, which makes none of the writer that it hands out. -/
def DocumentCall.Own (call : DocumentCall) : Prop :=
  ∀ calls, call = .results calls → calls = []

theorem Document.InStep.step {document : Document} (inStep : document.InStep) {call : DocumentCall}
    (own : call.Own)
    : ¬(document.step call).2.Misused
      ∧ ((document.step call).1.InStep ∨ document.Breaks call (document.step call).2) := by
  have own_reply {α : Type} {frames kept : Prop} {answer : Except DeliveryError α}
      (fair : Fair frames kept answer) (done : α → DocumentReply)
      (succeeds : ∀ value cause, done value ≠ .failed cause)
      (breaks : frames → document.state = .empty ∨ ∃ logs, call = .close logs)
      : ¬(replyOf done answer).Misused ∧ (kept ∨ document.Breaks call (replyOf done answer)) := by
    obtain ⟨placed, inStep⟩ :=
      fair.told DocumentReply.failed.inj (fun _ => rfl : ∀ cause, replyOf done (.error cause) = _)
        succeeds
    exact ⟨placed, inStep.imp_right fun broken => ⟨breaks broken.1, broken.2⟩⟩
  cases call with
  | state => exact ⟨fun ⟨_, _, same⟩ => (by cases same), .inl inStep⟩
  | results calls =>
      obtain rfl := own calls rfl
      exact own_reply inStep.writeCalls .results (fun _ _ => nofun) .inl
  | writeResult source text =>
      exact own_reply (inStep.writeResult source text) (fun _ => .done) (fun _ _ => nofun) .inl
  | close logs =>
      exact own_reply (inStep.close logs) (fun _ => .done) (fun _ _ => nofun)
        fun _ => .inr ⟨logs, rfl⟩

/-- A reply that reports a misuse of the writer. -/
def Reply.Misused (reply : Reply) : Prop :=
  ∃ place misuse, reply = .failed (.serialization place (.misuse misuse))

/-- The opening of the document breaks, or its completion. -/
def Session.Breaks (session : Session) (request : Request) (reply : Reply) : Prop :=
  (session.document.state = .empty ∨ request = .complete)
    ∧ ∃ place, reply = .failed (.serialization place .broken)

/-- A request of a session whose document is in step. -/
theorem Session.step_inStep {session : Session} (inStep : session.document.InStep)
    (request : Request)
    : ¬(session.step request).2.Misused
      ∧ ((session.step request).1.document.InStep
        ∨ session.Breaks request (session.step request).2) := by
  have own_reply {frames kept : Prop} {answer : Except DeliveryError Unit}
      (fair : Fair frames kept answer)
      (breaks : frames → session.document.state = .empty ∨ request = .complete)
      : ¬(replyOf answer).Misused ∧ (kept ∨ session.Breaks request (replyOf answer)) := by
    obtain ⟨placed, inStep⟩ :=
      fair.told Reply.failed.inj (fun _ => rfl : ∀ cause, replyOf (.error cause) = _)
        fun _ _ => nofun
    exact ⟨placed, inStep.imp_right fun broken => ⟨breaks broken.1, broken.2⟩⟩
  cases request with
  | whole result => exact own_reply (fair_serialize inStep result) .inl
  | complete => exact own_reply (fair_complete inStep) fun _ => .inr rfl
  | shard shard =>
      constructor
      · rintro ⟨place, misuse, failed⟩
        obtain ⟨_, other | ⟨_, other⟩ | ⟨_, _, other⟩⟩ := step_shard_failed (Prod.ext rfl failed)
        · cases other
        · cases other
        · cases other
      · refine .inl ?_
        simp only [Session.step, serializePartial]
        rcases session.filed shard with cause | ⟨shards, _ | _ | _⟩
        · exact inStep
        · exact inStep
        · exact inStep
        · exact inStep

/-- A document and a session misuse their own writer only behind a call that the stream broke inside
of the opening or the end, or inside of the shards that a completion writes, or whose flush failed
at the end. As long as that has not happened every failure to write is one of the stream itself,
wherever else it broke and whatever is called afterwards. The stream may break, recover and turn
into any other one between two calls. For a document this is about its own calls, not about those
that are made of the writer that it hands out.
-/
theorem misused_behind_break (stream : Stream)
    : (∀ history document call,
        (Document.start stream).Leads history document
        → (∀ exchange ∈ history, exchange.1.Own)
        → call.Own
        → (document.step call).2.Misused
        → ∃ before reached broken after,
            history = before ++ (broken, (reached.step broken).2) :: after
            ∧ (Document.start stream).Leads before reached
            ∧ reached.Breaks broken (reached.step broken).2
            ∧ (reached.step broken).1.Leads after document)
      ∧ ∀ query options first history session request,
          Session.start query options stream = .ok first
          → first.Leads history session
          → (session.step request).2.Misused
          → ∃ before reached broken after,
              history = before ++ (broken, (reached.step broken).2) :: after
              ∧ first.Leads before reached
              ∧ reached.Breaks broken (reached.step broken).2
              ∧ (reached.step broken).1.Leads after session := by
  refine ⟨fun history document call leads own here misused => ?_,
    fun query options first history session request started leads misused => ?_⟩
  · have steps (document : Document) (call : DocumentCall) (inStep : document.InStep)
        (own : call.Own) :=
      (inStep.step own).2
    have drifts (document other : Document) (inStep : document.InStep)
        (drifted : ∃ stream, other = onto document stream) : other.InStep := by
      obtain ⟨stream, rfl⟩ := drifted
      exact inStep.onto stream
    have kept := Reaches.good_or_broken DocumentCall.Own steps drifts (.empty stream) leads own
    exact kept.resolve_left fun inStep => (inStep.step here).1 misused
  · have steps (session : Session) (request : Request) (inStep : session.document.InStep)
        (_ : True) :=
      (Session.step_inStep inStep request).2
    have drifts (session other : Session) (inStep : session.document.InStep)
        (drifted : session.Drifts other) : other.document.InStep := by
      obtain ⟨stream, registry, rfl⟩ := drifted
      exact inStep.onto stream
    have empty : first.document.InStep := by
      unfold Session.start at started
      split at started
      · cases started
      · cases started
        exact .empty stream
    have kept := Reaches.good_or_broken (fun _ => True) steps drifts empty
      (Session.leads_iff_reaches.mp leads) fun _ _ => trivial
    obtain ⟨before, reached, broken, after, split, earlier, breaks, later⟩ :=
      kept.resolve_left fun inStep => (Session.step_inStep inStep request).1 misused
    exact ⟨before, reached, broken, after, split, Session.leads_iff_reaches.mpr earlier, breaks,
      Session.leads_iff_reaches.mpr later⟩

/-- The stream has room for everything from here on. -/
def Stream.recovered (stream : Stream) : Stream :=
  { stream with room := none }

/-- An opening that breaks behind its brace, and a completion that breaks inside of its only series.
Both streams recover, and then the next call is a misuse.
-/
theorem misused_behind_break_twice
    : (let first := Document.start (.limited 5)
        let opening := DocumentCall.writeResult "a" "1"
        let broke := (first.step opening).1
        let last := onto broke (stream broke).recovered
        (last.step (.writeResult "b" "2")).2.Misused
        ∧ ∃ before reached broken after,
          [(opening, (first.step opening).2)] = before ++ (broken, (reached.step broken).2) :: after
          ∧ first.Leads before reached
          ∧ reached.Breaks broken (reached.step broken).2
          ∧ (reached.step broken).1.Leads after last)
      ∧ ∃ first,
          Session.start .firstMinute .standard (.limited 40) = .ok first
          ∧ let requests := [Request.shard (Offer.single 7 30 (.int 5)).shard, .complete]
            let broke := (first.run requests).1
            let last := onto broke (stream broke).recovered
            (last.step .complete).2.Misused
            ∧ ∃ before reached broken after,
              requests.zip (first.run requests).2
                = before ++ (broken, (reached.step broken).2) :: after
              ∧ first.Leads before reached
              ∧ reached.Breaks broken (reached.step broken).2
              ∧ (reached.step broken).1.Leads after last := by
  constructor
  · intro first opening broke last
    have misused : (last.step (.writeResult "b" "2")).2.Misused := ⟨"b", .valueWithoutName, rfl⟩
    have leads : first.Leads [(opening, (first.step opening).2)] last :=
      (Reaches.refl.call opening).drift ⟨_, rfl⟩
    refine ⟨misused, (misused_behind_break (.limited 5)).1 _ _ _ leads ?_ ?_ misused⟩
    · intro exchange member calls used
      obtain rfl := List.mem_singleton.mp member
      cases used
    · intro calls used
      cases used
  · refine ⟨_, rfl, ?_⟩
    intro requests broke last
    have misused : (last.step .complete).2.Misused :=
      ⟨Document.place, .closedUnopened, by decide +kernel⟩
    exact ⟨misused, (misused_behind_break (.limited 40)).2 .firstMinute .standard _ _ last _ rfl
      ((Session.Leads.refl.run requests).meanwhile (stream broke).recovered _) misused⟩

/-- A second result, after the stream broke inside of the opening, and a second attempt to close a
document, after the stream broke at its end: the fault that is reported is not the stream's.
-/
theorem misused_opening_and_end
    : ((Document.start (.limited 5)).run [.writeResult "a" "1", .writeResult "b" "2"]).2
        = [.failed (.serialization "a" .broken),
            .failed (.serialization "b" (.misuse .valueWithoutName))]
      ∧ ((Document.start (.limited 12)).run [.close none, .close none]).2
        = [.failed (.serialization Document.place .broken),
            .failed (.serialization Document.place (.misuse .closedUnopened))] :=
  ⟨rfl, rfl⟩

end SeriesWire
