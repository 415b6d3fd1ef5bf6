import SeriesWire.Proofs.Delivery.Replies
import SeriesWire.Proofs.Json.WellFormed

/-! A completed session leaves one well-formed JSON value on its stream.
Whatever was written elsewhere and spliced in, the text as a whole is that of one tree: the document
with its results and its log lines.
-/

namespace SeriesWire

open Json

namespace Document

/-- The document as a tree. -/
def toJson (results : List Json) (logs : Option (List String)) : Json :=
  .object (("results", .array results)
    :: (logs.map fun lines => ("log", .array (lines.map .string))).toList)

/-- The text of a document with the texts of its results is that of its tree. -/
theorem text_eq_toJson (results : List Json) (logs : Option (List String))
    : text (results.map Json.text) logs = (toJson results logs).text := by
  have name : quoted "results" = "\"results\"" := by decide
  have front : "\x7b\"results\":[" = "\x7b" ++ ("\"results\"" ++ ":" ++ "[") := by decide
  rw [text, ending_eq, toJson, Json.text, memberTexts, ← append_separated 0, Json.text,
    itemTexts_eq_map, name, front]
  simp only [String.append_assoc]

end Document

namespace Session

variable {session : Session} {query : Query} {options : Options} {stream : Stream}
  {history : History}

/-- Completion leaves the tree of what was taken on the stream. -/
theorem Tracks.complete_document (tracks : session.Tracks query options stream history)
    (unlimited : stream.room = none)
    : session.complete.1.document.writer.stream
        = stream.extend (Document.toJson
            ((history.entries query options).map SourceEntry.toJson) (shownLogs query)).text
      ∧ session.complete.1.document.state = .closed
      ∧ session.complete.1.closing = true := by
  rw [tracks.complete unlimited, ← Document.text_eq_toJson, List.map_map]
  exact ⟨rfl, rfl, rfl⟩

/-- Every run that completes a session puts exactly one value of the JSON grammar on the stream,
encoded as UTF-8, and nothing else: whatever results and shards it was given before, whichever of
them were refused, whatever is asked afterwards, and whether or not the completion reports series
without an identity.
-/
theorem run_wellFormed (started : start query options stream = .ok session)
    (unlimited : stream.room = none) {requests : List Request} (asked : .complete ∈ requests)
    : ∃ document : String,
        (session.run requests).1.document.writer.stream.accepted
          = stream.accepted ++ document.toUTF8
        ∧ Grammar.Value document.toList
        ∧ (session.run requests).1.document.state = .closed := by
  -- The first completion closes the document, and later requests change nothing.
  obtain ⟨requests, later, rfl, more⟩ := List.eq_append_cons_of_mem asked
  have tracks := (Tracks.start started).run unlimited more
  rw [List.nil_append] at tracks
  obtain ⟨written, closed, closing⟩ := tracks.complete_document unlimited
  have left : (session.run (requests ++ .complete :: later)).1
      = (session.run requests).1.complete.1 := by
    rw [run_append, run_cons]
    exact congrArg Prod.fst (run_of_closed closing closed later)
  have value := value_text (Document.toJson
    ((History.entries (requests.zip (session.run requests).2) query options).map
      SourceEntry.toJson) (shownLogs query))
  refine ⟨_, ?_, value, ?_⟩
  · rw [left, written]
    rfl
  · rw [left, closed]

/-- A result with a quote in a metric, values that are no numbers, a gap, and an empty run of
statuses. -/
def oddResult : QueryResult where
  node := "node"
  dataSource := "\n"
  kind := .other
  grid := none
  rollup := none
  series :=
    [ ⟨.named (.ofMetric "a\"b"),
        [.numeric [⟨.ofEpoch 5, some (.double ⟨0x7FF8000000000000⟩)⟩, ⟨.ofEpoch 6, none⟩,
          ⟨.ofEpoch 7, some (.double ⟨0xFFF0000000000000⟩)⟩]]⟩,
      ⟨.named (.ofMetric "c"), [.status (some "prod") []]⟩]

/-- A result is written, a shard is refused after it, and another result after the completion. -/
theorem run_wellFormed_odd
    : ∃ session, ∃ document : String,
        start .firstMinute .standard .unlimited = .ok session
        ∧ (session.run [.whole oddResult, .shard (Offer.single 7 30 (.int 5)).shard, .complete,
            .whole oddResult]).2
          = [.done, .failed (.invalid .shardAfterWhole), .done, .failed .closed]
        ∧ (session.run [.whole oddResult, .shard (Offer.single 7 30 (.int 5)).shard, .complete,
            .whole oddResult]).1.document.writer.stream.accepted = document.toUTF8
        ∧ Grammar.Value document.toList := by
  have asked : Request.complete ∈ [.whole oddResult, .shard (Offer.single 7 30 (.int 5)).shard,
      .complete, .whole oddResult] := by
    simp
  obtain ⟨document, written, value, _⟩ :=
    run_wellFormed (rfl : start .firstMinute .standard .unlimited = .ok _) rfl asked
  refine ⟨_, document, rfl, ?_, written.trans ?_, value⟩
  · decide +kernel
  · exact ByteArray.empty_append

end Session

end SeriesWire
