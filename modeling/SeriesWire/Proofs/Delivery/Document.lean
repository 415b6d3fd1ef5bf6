import SeriesWire.Delivery.Document
import SeriesWire.Proofs.Json.Spelling

/-! The text of a document from its opening to its end.
On a stream that never breaks a document goes through three forms: nothing is written, some results
are, or it is closed.
-/

namespace SeriesWire

open Json

namespace Document

/-- The end of a document: the log lines if there are to be any, and the closing brace. -/
def ending (logs : Option (List String)) : String :=
  "]" ++ (match logs with
    | some lines => ",\"log\":[" ++ String.intercalate "," (lines.map quoted) ++ "]"
    | none => "") ++ "\x7d"

/-- The text of a document with the given results. -/
def text (results : List String) (logs : Option (List String)) : String :=
  "\x7b\"results\":[" ++ String.intercalate "," results ++ ending logs

/-- An open document behind its results. -/
def holding (stream : Stream) (results : List String) (count : Nat) : Document where
  writer := ⟨stream.extend ("\x7b\"results\":[" ++ String.intercalate "," results),
    ⟨[⟨.array, count⟩, ⟨.object, 1⟩], false⟩⟩
  state := .opened

def closedWith (stream : Stream) (results : List String) (logs : Option (List String))
    : Document where
  writer := ⟨stream.extend (text results logs), .root⟩
  state := .closed

variable {stream : Stream}

/-- Tokens in place are written on behalf of any place, and the document moves on. -/
theorem writeAs_of_writes (document : Document) {tokens : List Token} {text : String}
    {next : Cursor} (h : Writes document.writer.cursor tokens text next)
    (unlimited : document.writer.stream.room = none) (place : String) (state : DocumentState)
    : document.writeAs place tokens state
      = (⟨⟨document.writer.stream.extend text, next⟩, state⟩, .ok ()) := by
  rw [writeAs, h.writeAll unlimited]

/-- What stands in front of the first result. -/
theorem writes_openingTokens
    : Writes .root openingTokens "\x7b\"results\":[" ⟨[⟨.array, 0⟩, ⟨.object, 1⟩], false⟩ := by
  have name : quoted "results" = "\"results\"" := by decide
  simp [Writes, openingTokens, Draft.writeAll, Draft.write, Draft.start, Cursor.plan,
    Cursor.root, Cursor.beforeValue, Cursor.beforeMember, Cursor.advance, Cursor.push,
    Except.map, Plan.andWrite, Plan.landAt, Plan.text, name]

/-- Opening a document writes what stands in front of the first result. -/
theorem ensureOpen_start (unlimited : stream.room = none) (place : String)
    : (Document.start stream).ensureOpen place = (holding stream [] 0, .ok ()) := by
  rw [ensureOpen, start, writeAs_of_writes _ writes_openingTokens unlimited]
  simp [holding, Writer.start]

theorem ensureOpen_holding (results : List String) (count : Nat) (place : String)
    : (holding stream results count).ensureOpen place = (holding stream results count, .ok ()) :=
  rfl

/-- A result is written behind the others. -/
theorem writeResult_holding (unlimited : stream.room = none) (results : List String)
    (source text : String)
    : (holding stream results results.length).writeResult source text
      = (holding stream (results ++ [text]) (results ++ [text]).length, .ok ()) := by
  have spliced : Writes (holding stream results results.length).writer.cursor [.raw text]
      ((if results.length = 0 then "" else ",") ++ text)
      (holding stream results (results.length + 1)).writer.cursor := by
    have item := spells_raw text ⟨[⟨.array, results.length⟩, ⟨.object, 1⟩], false⟩ _ rfl rfl
    rwa [Cursor.text_advance, Cursor.landing_advance] at item
  have joined : "\x7b\"results\":[" ++ String.intercalate "," (results ++ [text])
      = "\x7b\"results\":[" ++ String.intercalate "," results
        ++ ((if results.length = 0 then "" else ",") ++ text) := by
    rw [← separated_zero, ← separated_zero, separated_append, Nat.zero_add, String.append_assoc]
    simp [separated]
  rw [writeResult, ensureOpen_holding]
  simp only [writeAs_of_writes _ spliced unlimited]
  simp only [holding, joined, Stream.extend_append, List.length_append, List.length_singleton]

/-- The first result opens the document. -/
theorem writeResult_start (unlimited : stream.room = none) (source text : String)
    : (Document.start stream).writeResult source text = (holding stream [text] 1, .ok ()) := by
  have written := writeResult_holding unlimited [] source text
  rw [writeResult, ensureOpen_holding] at written
  rw [writeResult, ensureOpen_start unlimited]
  exact written

/-- The log lines are one more member of the document. -/
theorem ending_eq (logs : Option (List String))
    : ending logs
      = "]" ++ separated 1
          (memberTexts (logs.map fun lines => ("log", Json.array (lines.map .string))).toList)
        ++ "\x7d" := by
  have name : quoted "log" = "\"log\"" := by decide
  cases logs with
  | none => rfl
  | some lines =>
      have texts : itemTexts (lines.map Json.string) = lines.map quoted := by
        rw [itemTexts_eq_map, List.map_map]
        rfl
      have front : ",\"log\":[" = "," ++ ("\"log\"" ++ ":" ++ "[") := by decide
      simp only [ending, Option.map_some, Option.toList_some, memberTexts, separated, Json.text,
        texts, name, front, Nat.one_ne_zero, if_false, String.append_empty, String.append_assoc]

/-- What stands behind the last result. -/
theorem writes_closingTokens (count : Nat) (logs : Option (List String))
    : Writes ⟨[⟨.array, count⟩, ⟨.object, 1⟩], false⟩ (closingTokens logs) (ending logs) .root := by
  have arrayClosed : Writes ⟨[⟨.array, count⟩, ⟨.object, 1⟩], false⟩ [.closeArray] "]"
      ⟨[⟨.object, 1⟩], false⟩ :=
    Writes.single (p := Plan.andWrite ⟨[], ⟨[⟨.object, 1⟩], false⟩⟩ "]") rfl
  have logged := listsMembers_memberTokens
    (logs.map fun lines => ("log", Json.array (lines.map .string))).toList [] 1
  have objectClosed (members : Nat)
      : Writes ⟨[⟨.object, members⟩], false⟩ [.closeObject] "\x7d" .root :=
    Writes.single (p := Plan.andWrite ⟨[], .root⟩ "\x7d") rfl
  rw [ending_eq]
  exact (arrayClosed.append logged).append (objectClosed _)

/-- Closing a document writes its end. -/
theorem close_holding (unlimited : stream.room = none) (results : List String) (count : Nat)
    (logs : Option (List String))
    : (holding stream results count).close logs = (closedWith stream results logs, .ok ()) := by
  have ended : Writes (holding stream results count).writer.cursor (closingTokens logs)
      (ending logs) .root :=
    writes_closingTokens count logs
  rw [close, ensureOpen_holding]
  simp only [finish, writeAs_of_writes _ ended unlimited]
  rw [Writer.flush_unlimited unlimited]
  simp only [holding, closedWith, text, Stream.extend_append]

/-- A document without results is opened and closed at once. -/
theorem close_start (unlimited : stream.room = none) (logs : Option (List String))
    : (Document.start stream).close logs = (closedWith stream [] logs, .ok ()) := by
  have closed := close_holding unlimited [] 0 logs
  rw [close, ensureOpen_holding] at closed
  rw [close, ensureOpen_start unlimited]
  exact closed

end Document

end SeriesWire
