import SeriesWire.Json.Call

/-! A stream that breaks cuts a text off; it never reorders, repeats or skips any of it.
An action offers the same bytes to every stream. If they fit, it goes on as on a stream that never
breaks; if not, the stream is exhausted, and nothing that is done afterwards adds to it.
-/

namespace SeriesWire

-----------------------------------------------------------------------------------------
-- Bytes on a stream
-----------------------------------------------------------------------------------------

namespace Stream

/-- The stream has room for the bytes. -/
def Fits (stream : Stream) (bytes : ByteArray) : Prop :=
  ∀ room, stream.room = some room → bytes.size ≤ room.bytes

/-- The stream after the bytes were offered, of which it takes as many as fit. -/
def after (stream : Stream) (bytes : ByteArray) : Stream :=
  match stream.room with
  | none => ⟨stream.accepted ++ bytes, none⟩
  | some room =>
    ⟨stream.accepted ++ bytes.extract 0 room.bytes,
      some { room with bytes := room.bytes - bytes.size }⟩

variable {stream : Stream} {bytes more : ByteArray}

theorem fits_some {accepted : ByteArray} {room : Limit}
    : (Stream.mk accepted (some room)).Fits bytes ↔ bytes.size ≤ room.bytes := by
  simp [Fits]

/-- No more bytes are taken than there are. -/
theorem extract_eq_min (bytes : ByteArray) (room : Nat)
    : bytes.extract 0 room = bytes.extract 0 (min room bytes.size) := by
  rcases Nat.le_total room bytes.size with tight | enough
  · rw [Nat.min_eq_left tight]
  · rw [Nat.min_eq_right enough, ByteArray.extract_zero_size, ← Nat.max_eq_left enough,
      ByteArray.extract_zero_max_size]

theorem offer_of_fits {text : String} (fits : stream.Fits text.toUTF8)
    : stream.offer text = (stream.after text.toUTF8, true) := by
  obtain ⟨accepted, _ | room⟩ := stream
  · rfl
  · have enough := fits_some.mp fits
    have all : text.toUTF8.extract 0 room.bytes = text.toUTF8 := by
      rw [extract_eq_min, Nat.min_eq_right enough, ByteArray.extract_zero_size]
    simp only [offer, after, enough, if_true, all]

theorem offer_of_not_fits {text : String} (breaks : ¬stream.Fits text.toUTF8)
    : stream.offer text = (stream.after text.toUTF8, false) := by
  obtain ⟨accepted, _ | room⟩ := stream
  · exact absurd (fun room limited => nomatch limited) breaks
  · have tight : ¬text.toUTF8.size ≤ room.bytes := fun enough => breaks (fits_some.mpr enough)
    have nothing : room.bytes - text.toUTF8.size = 0 := by omega
    simp only [offer, after, tight, if_false, nothing]

theorem after_empty (stream : Stream) : stream.after .empty = stream := by
  have nothing (room : Nat) : ByteArray.empty.extract 0 room = .empty :=
    ByteArray.extract_eq_empty_iff.mpr (by simp)
  obtain ⟨accepted, _ | room⟩ := stream <;> simp [after, nothing]

/-- Offering bytes one part after the other is offering all of them. -/
theorem after_append (stream : Stream) (bytes more : ByteArray)
    : stream.after (bytes ++ more) = (stream.after bytes).after more := by
  obtain ⟨accepted, _ | room⟩ := stream
  · simp [after, ByteArray.append_assoc]
  · simp only [after, ByteArray.extract_append, ByteArray.size_append, ByteArray.append_assoc,
      Nat.zero_sub, Nat.sub_sub]

/-- A stream has room for two parts if it has room for the first and then for the second. -/
theorem fits_append
    : stream.Fits (bytes ++ more) ↔ stream.Fits bytes ∧ (stream.after bytes).Fits more := by
  obtain ⟨accepted, _ | room⟩ := stream
  · simp [Fits, after]
  · simp only [after, fits_some, ByteArray.size_append]
    omega

/-- A stream that did not have room takes nothing any more. -/
theorem after_of_not_fits (breaks : ¬stream.Fits bytes)
    : (stream.after bytes).after more = stream.after bytes := by
  obtain ⟨accepted, _ | room⟩ := stream
  · exact absurd (fun room limited => nomatch limited) breaks
  · have tight : ¬bytes.size ≤ room.bytes := fun enough => breaks (fits_some.mpr enough)
    have nothing : room.bytes - bytes.size = 0 := by omega
    simp [after, nothing]

/-- Taking bytes does not change whether they can be flushed. -/
theorem flushes_after (stream : Stream) (bytes : ByteArray)
    : (stream.after bytes).flushes = stream.flushes := by
  obtain ⟨accepted, _ | room⟩ := stream <;> rfl

/-- The stream with another answer to flushes. One without a limit has only one answer. -/
def withFlushes (stream : Stream) (flushes : Bool) : Stream :=
  { stream with room := stream.room.map fun room => { room with flushes } }

theorem flushes_withFlushes_true (stream : Stream) : (stream.withFlushes true).flushes = true := by
  obtain ⟨accepted, _ | room⟩ := stream <;> rfl

theorem withFlushes_flushes (stream : Stream)
    : (stream.withFlushes true).withFlushes stream.flushes = stream := by
  obtain ⟨accepted, _ | room⟩ := stream <;> rfl

theorem fits_withFlushes {flushes : Bool}
    : (stream.withFlushes flushes).Fits bytes ↔ stream.Fits bytes := by
  obtain ⟨accepted, _ | room⟩ := stream
  · rfl
  · simp only [withFlushes, Option.map_some, fits_some]

theorem offer_withFlushes (stream : Stream) (flushes : Bool) (text : String)
    : (stream.withFlushes flushes).offer text
      = (stream.offer text).map (withFlushes · flushes) id := by
  obtain ⟨accepted, _ | room⟩ := stream
  · rfl
  · simp only [offer, withFlushes, Option.map_some]
    split <;> rfl

end Stream

-----------------------------------------------------------------------------------------
-- Actions on a stream
-----------------------------------------------------------------------------------------

/-- What writes to a stream, and can be moved onto another stream without any other change. -/
class OnStream (σ : Type) where
  stream : σ → Stream
  onto : σ → Stream → σ
  stream_onto (s : σ) (t : Stream) : stream (onto s t) = t
  onto_stream (s : σ) : onto s (stream s) = s

open OnStream

variable {σ τ α β : Type} [OnStream σ] [OnStream τ]

/-- From `s`, the action offers `added` to whatever stream there is, unless it cannot be flushed. If
that fits, it ends at `next` with `answer`.
-/
structure Adds (action : σ → σ × α) (s : σ) (added : ByteArray) (next : σ) (answer : α)
    : Prop where
  offered (t : Stream) (kept : t.flushes = true) : stream (action (onto s t)).1 = t.after added
  fitted (t : Stream) (kept : t.flushes = true) (fits : t.Fits added)
    : action (onto s t) = (onto next (t.after added), answer)

/-- What the action adds does not depend on the stream. -/
def Truncates (action : σ → σ × α) : Prop :=
  ∀ s, ∃ added next answer, Adds action s added next answer

namespace Truncates

theorem congr {whole action : σ → σ × α} (inner : Truncates action)
    (h : ∀ s, whole s = action s)
    : Truncates whole :=
  funext h ▸ inner

/-- An action that does not touch the stream. -/
theorem still {action : σ → σ × α}
    (h : ∀ s t, action (onto s t) = (onto (action s).1 t, (action s).2))
    : Truncates action := by
  intro s
  refine ⟨.empty, (action s).1, (action s).2, fun t _ => ?_, fun t _ _ => ?_⟩
  · rw [h, stream_onto, Stream.after_empty]
  · rw [h, Stream.after_empty]

/-- An action, and another one that depends on its answer. If the first exhausts the stream, it does
not matter which one follows.
-/
theorem bind {action : σ → σ × β} (further : β → σ → σ × α) (first : Truncates action)
    (second : ∀ answer, Truncates (further answer))
    : Truncates fun s => further (action s).2 (action s).1 := by
  intro s
  obtain ⟨added, middle, between, here⟩ := first s
  obtain ⟨more, next, answer, there⟩ := second between middle
  refine ⟨added ++ more, next, answer, fun t kept => ?_, fun t kept fits => ?_⟩
  · have still : (t.after added).flushes = true := (t.flushes_after added).trans kept
    rw [Stream.after_append]
    by_cases fits : t.Fits added
    · rw [here.fitted t kept fits]
      exact there.offered _ still
    · generalize after : action (onto s t) = reached
      have exhausted := here.offered t kept
      rw [after] at exhausted
      obtain ⟨other, ended, reply, elsewhere⟩ := second reached.2 reached.1
      have last := elsewhere.offered (stream reached.1) (exhausted ▸ still)
      rw [onto_stream, exhausted] at last
      rw [last, Stream.after_of_not_fits fits, Stream.after_of_not_fits fits]
  · obtain ⟨enough, later⟩ := Stream.fits_append.mp fits
    rw [Stream.after_append, here.fitted t kept enough]
    exact there.fitted _ ((t.flushes_after added).trans kept) later

/-- An action on the part of something that writes to its stream. -/
theorem part (part : τ → σ) (put : τ → σ → τ) {action : σ → σ × α}
    (onto_eq : ∀ s t, onto s t = put s (onto (part s) t)) (part_put : ∀ s p, part (put s p) = p)
    (put_put : ∀ s p q, put (put s p) q = put s q)
    (stream_put : ∀ s p, stream (put s p) = stream p) (inner : Truncates action)
    : Truncates fun s => (put s (action (part s)).1, (action (part s)).2) := by
  intro s
  obtain ⟨added, next, answer, here⟩ := inner (part s)
  refine ⟨added, put s next, answer, fun t kept => ?_, fun t kept fits => ?_⟩
  · rw [stream_put, onto_eq, part_put]
    exact here.offered t kept
  · simp only [onto_eq, part_put, put_put, here.fitted t kept fits]

/-- An action that may fail, and what follows in either case. -/
theorem attempt {ε : Type} {whole : σ → σ × α} {action : σ → σ × Except ε β}
    {onward : β → σ → σ × α} {ending : ε → σ → σ × α} (first : Truncates action)
    (succeeded : ∀ answer, Truncates (onward answer)) (failed : ∀ cause, Truncates (ending cause))
    (h : ∀ s, whole s = match (action s).2 with
      | .ok answer => onward answer (action s).1
      | .error cause => ending cause (action s).1)
    : Truncates whole := by
  rw [funext h]
  refine bind (fun result s => match result with
    | .ok answer => onward answer s
    | .error cause => ending cause s) first fun result => ?_
  cases result with
  | ok answer => exact succeeded answer
  | error cause => exact failed cause

/-- A change of what is not the stream. -/
theorem change (f : σ → σ) (answer : α) (h : ∀ s t, f (onto s t) = onto (f s) t)
    : Truncates fun s => (f s, answer) :=
  .still fun s t => by rw [h]

theorem nothing (answer : α) : Truncates fun s : σ => (s, answer) :=
  change id answer fun _ _ => rfl

/-- Another way of telling the answer. -/
theorem map {action : σ → σ × β} (inner : Truncates action) (f : β → α)
    : Truncates fun s => (action s).map id f :=
  inner.bind (fun answer s => (s, f answer)) fun answer => .nothing (f answer)

/-- Looking at what is not the stream. -/
theorem look (view : σ → α) (h : ∀ s t, view (onto s t) = view s)
    : Truncates fun s => (s, view s) :=
  .still fun s t => by rw [h]

/-- One of two actions, chosen by what is not the stream. -/
theorem either (test : σ → Prop) [DecidablePred test] {action other : σ → σ × α}
    (same : ∀ s t, test (onto s t) ↔ test s) (first : Truncates action) (second : Truncates other)
    : Truncates fun s => if test s then action s else other s := by
  have tested := look (fun s => decide (test s)) fun s t => decide_eq_decide.mpr (same s t)
  have chosen := tested.bind (fun holds s => if holds then action s else other s) fun holds => by
    cases holds with
    | true => exact first
    | false => exact second
  simpa only [decide_eq_true_eq] using chosen

end Truncates

-----------------------------------------------------------------------------------------
-- Calls made one after the other
-----------------------------------------------------------------------------------------

variable {ρ : Type}

/-- A run takes the calls step by step, and goes on whatever their answers are. -/
structure Runs (step : ρ → σ → σ × α) (run : σ → List ρ → σ × List α) : Prop where
  nil (s : σ) : run s [] = (s, [])
  cons (s : σ) (call : ρ) (rest : List ρ)
    : run s (call :: rest)
      = ((run (step call s).1 rest).1, (step call s).2 :: (run (step call s).1 rest).2)

/-- On a stream with room for `limit` bytes, a run accepts the first `limit` bytes of what it writes
to a stream without a limit, and as long as these are enough it gives the same answers.
-/
structure CutOff (limit : Nat) (run : σ → List ρ → σ × List α) (cut whole : σ) (calls : List ρ)
    : Prop where
  accepted
    : (stream (run cut calls).1).accepted
      = (stream (run whole calls).1).accepted.extract 0
          (min limit (stream (run whole calls).1).accepted.size)
  answers (count : Nat)
    (enough : (stream (run whole (calls.take count)).1).accepted.size ≤ limit)
    : (run cut calls).2.take count = (run whole calls).2.take count

namespace Runs

variable {step : ρ → σ → σ × α} {run : σ → List ρ → σ × List α}

/-- The calls of a run are actions one after the other, by induction on them. -/
theorem truncates (runs : Runs step run) (steps : ∀ call, Truncates (step call))
    (calls : List ρ)
    : Truncates fun s => run s calls := by
  induction calls with
  | nil => exact funext runs.nil ▸ .nothing _
  | cons call rest ih =>
      have each : (fun s => run s (call :: rest)) = fun s =>
          ((run (step call s).1 rest).1, (step call s).2 :: (run (step call s).1 rest).2) :=
        funext fun s => runs.cons s call rest
      rw [each]
      exact (steps call).bind
        (fun answer s => ((run s rest).1, answer :: (run s rest).2)) fun answer =>
          ih.bind (fun answers s => (s, answer :: answers)) fun _ => .nothing _

omit [OnStream σ] in
/-- The first answers are those to the first calls, by induction on the calls. -/
theorem take_answers (runs : Runs step run) (s : σ) (calls : List ρ) (count : Nat)
    : (run s calls).2.take count = (run s (calls.take count)).2 := by
  induction calls generalizing s count with
  | nil => simp [runs.nil]
  | cons call rest ih =>
      cases count with
      | zero => simp [runs.nil]
      | succ count => simp [runs.cons, ih]

theorem cutOff (runs : Runs step run) (steps : ∀ call, Truncates (step call)) (limit : Nat)
    (s : σ) (calls : List ρ)
    : CutOff limit run (onto s (.limited limit)) (onto s .unlimited) calls := by
  have free (bytes : ByteArray) : Stream.unlimited.Fits bytes := nofun
  refine ⟨?_, fun count enough => ?_⟩
  · obtain ⟨added, next, answers, here⟩ := runs.truncates steps calls s
    rw [here.offered (.limited limit) rfl, here.offered .unlimited rfl]
    simp only [Stream.after, Stream.limited, Stream.unlimited, ByteArray.empty_append]
    exact Stream.extract_eq_min added limit
  · obtain ⟨added, next, answers, here⟩ := runs.truncates steps (calls.take count) s
    rw [here.offered .unlimited rfl] at enough
    have fits : (Stream.limited limit).Fits added :=
      Stream.fits_some.mpr (by simpa [Stream.after, Stream.unlimited] using enough)
    rw [runs.take_answers, runs.take_answers, here.fitted (.limited limit) rfl fits,
      here.fitted .unlimited rfl (free added)]

end Runs

-----------------------------------------------------------------------------------------
-- Writers
-----------------------------------------------------------------------------------------

namespace Json

instance : OnStream Writer where
  stream := Writer.stream
  onto writer stream := { writer with stream }
  stream_onto _ _ := rfl
  onto_stream _ := rfl

namespace Writer

/-- Offers a text and leaves the cursor where it is. -/
def offer (writer : Writer) (text : String) : Writer × Except Fault Unit :=
  match writer.stream.offer text with
  | (stream, true) => (onto writer stream, .ok ())
  | (stream, false) => (onto writer stream, .error .broken)

theorem truncates_offer (text : String) : Truncates fun writer : Writer => writer.offer text := by
  intro writer
  refine ⟨text.toUTF8, writer, .ok (), fun t _ => ?_, fun t _ fits => ?_⟩
  · by_cases fits : t.Fits text.toUTF8
    · simp only [offer, onto, Stream.offer_of_fits fits]
      rfl
    · simp only [offer, onto, Stream.offer_of_not_fits fits]
      rfl
  · simp only [offer, onto, Stream.offer_of_fits fits]

/-- Pieces are offered one after the other, by induction on them. -/
theorem truncates_carryOut (landing : Cursor) (pieces : List Piece)
    : Truncates fun writer : Writer => writer.carryOut landing pieces := by
  induction pieces with
  | nil => exact .still fun _ _ => rfl
  | cons piece rest ih =>
      refine .attempt (truncates_offer piece.text) (fun _ => ih)
        (fun fault => .change (fun writer => Writer.mk writer.stream piece.refused)
          (.error fault) fun _ _ => rfl) fun writer => ?_
      rw [carryOut, offer]
      rcases writer.stream.offer piece.text with ⟨next, _ | _⟩ <;> rfl

/-- What a token takes depends on the cursor alone. -/
theorem truncates_write (token : Token) : Truncates fun writer : Writer => writer.write token := by
  refine .attempt (.look (fun writer => writer.cursor.plan token) fun _ _ => rfl)
    (fun plan => truncates_carryOut plan.landing plan.pieces)
    (fun cause => .nothing (.error (.misuse cause))) fun writer => ?_
  rw [write]
  cases writer.cursor.plan token <;> rfl

/-- Tokens are written up to the first that fails, by induction on them. -/
theorem truncates_writeAll (tokens : List Token)
    : Truncates fun writer : Writer => writer.writeAll tokens := by
  induction tokens with
  | nil => exact .nothing _
  | cons token rest ih =>
      refine .attempt (truncates_write token) (fun _ => ih) (fun fault => .nothing (.error fault))
        fun writer => ?_
      rw [writeAll]
      rcases writer.write token with ⟨next, _ | _⟩ <;> rfl

/-- A stream that can be flushed is flushed without more bytes. -/
theorem truncates_flush : Truncates fun writer : Writer => (writer, writer.flush) := by
  intro writer
  have flushed (t : Stream) (kept : t.flushes = true) : (onto writer t).flush = .ok () :=
    if_pos kept
  refine ⟨.empty, writer, .ok (), fun t _ => t.after_empty.symm, fun t kept _ => ?_⟩
  rw [flushed t kept, t.after_empty]

/-- Every call, by the kinds of calls. -/
theorem truncates_call (call : Call) : Truncates fun writer : Writer => writer.call call := by
  cases call with
  | flush => exact truncates_flush
  | one token => exact truncates_write token
  | member name value => exact truncates_writeAll [.name name, value]

theorem runs : Runs (fun call writer => writer.call call) run :=
  ⟨fun _ => rfl, fun _ _ _ => rfl⟩

theorem truncates_run (calls : List Call) : Truncates fun writer : Writer => writer.run calls :=
  runs.truncates truncates_call calls

def withFlushes (writer : Writer) (flushes : Bool) : Writer :=
  { writer with stream := writer.stream.withFlushes flushes }

/-- Pieces are offered alike whatever a flush will say, by induction on them. -/
theorem carryOut_withFlushes (flushes : Bool) (writer : Writer) (landing : Cursor)
    (pieces : List Piece)
    : (writer.withFlushes flushes).carryOut landing pieces
      = (writer.carryOut landing pieces).map (withFlushes · flushes) id := by
  induction pieces generalizing writer with
  | nil => rfl
  | cons piece rest ih =>
      simp only [carryOut, withFlushes, Stream.offer_withFlushes]
      rcases writer.stream.offer piece.text with ⟨stream, _ | _⟩
      · rfl
      · exact ih ⟨stream, writer.cursor⟩

theorem write_withFlushes (flushes : Bool) (writer : Writer) (token : Token)
    : (writer.withFlushes flushes).write token
      = (writer.write token).map (withFlushes · flushes) id := by
  have planned : (writer.withFlushes flushes).cursor.plan token = writer.cursor.plan token := rfl
  rw [write, write, planned]
  cases writer.cursor.plan token with
  | error cause => rfl
  | ok p => exact carryOut_withFlushes flushes writer p.landing p.pieces

theorem writeAll_withFlushes (flushes : Bool) (writer : Writer) (tokens : List Token)
    : (writer.withFlushes flushes).writeAll tokens
      = (writer.writeAll tokens).map (withFlushes · flushes) id := by
  induction tokens generalizing writer with
  | nil => rfl
  | cons token rest ih =>
      rw [writeAll, writeAll, write_withFlushes]
      rcases writer.write token with ⟨next, _ | _⟩
      · rfl
      · exact ih next

/-- What a flush says makes no difference to where a call leads. -/
theorem call_withFlushes (flushes : Bool) (writer : Writer) (call : Call)
    : ((writer.withFlushes flushes).call call).1 = (writer.call call).1.withFlushes flushes := by
  cases call with
  | flush => rfl
  | one token => exact congrArg Prod.fst (write_withFlushes flushes writer token)
  | member name value =>
      exact congrArg Prod.fst (writeAll_withFlushes flushes writer [.name name, value])

/-- Calls lead to the same place whatever a flush says, by induction on them. -/
theorem run_withFlushes (flushes : Bool) (writer : Writer) (calls : List Call)
    : ((writer.withFlushes flushes).run calls).1 = (writer.run calls).1.withFlushes flushes := by
  induction calls generalizing writer with
  | nil => rfl
  | cons call rest ih => simp only [run, call_withFlushes, ih]

end Writer

end Json

end SeriesWire
