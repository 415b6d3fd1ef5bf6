import SeriesWire.Proofs.Json.OpenText

/-! A misplaced call is refused before anything is done.
Where the writer stands decides alone whether a call is misplaced, on whatever stream and whatever
broke before. The refusal leaves the writer as it was, so it makes no difference to any later call
whether the misplaced one was made.
-/

namespace SeriesWire.Json

-----------------------------------------------------------------------------------------
-- Where tokens are misplaced
-----------------------------------------------------------------------------------------

/-- The token is a value, or opens one. -/
def Token.IsValue : Token → Prop
  | .openObject | .openArray | .scalar _ | .raw _ => True
  | _ => False

namespace Cursor

/-- The kind of the innermost open scope, if any is open. -/
def innermost? (c : Cursor) : Option ScopeKind :=
  c.scopes.head?.map Scope.kind

/-- The cursor is not where such a token belongs. A value in an object needs a name in front of it;
names and members belong into an object where no name waits for its value; a bracket closes only the
innermost scope, and that not while a name waits.
-/
def Misplaces (c : Cursor) : Token → Prop
  | .openObject | .openArray | .scalar _ | .raw _ =>
      c.innermost? = some .object ∧ c.pending = false
  | .name _ => c.pending = true ∨ c.innermost? ≠ some .object
  | .rawMembers text => text ≠ "" ∧ (c.pending = true ∨ c.innermost? ≠ some .object)
  | .closeObject => c.pending = true ∨ c.innermost? ≠ some .object
  | .closeArray => c.pending = true ∨ c.innermost? ≠ some .array

/-- A call is misplaced where its first token is. -/
def MisplacesCall (c : Cursor) : Call → Prop
  | .one token => c.Misplaces token
  | .member name _ => c.Misplaces (.name name)
  | .flush => False

variable (c : Cursor)

theorem beforeValue_misuse_iff
    : (∃ cause, c.beforeValue = .error cause)
      ↔ c.innermost? = some .object ∧ c.pending = false := by
  obtain ⟨_ | ⟨⟨kind, count⟩, outer⟩, pending⟩ := c
  · simp [beforeValue, innermost?]
  · cases kind <;> cases pending <;> simp [beforeValue, innermost?]

theorem beforeMember_misuse_iff (early outside : Misuse)
    : (∃ cause, c.beforeMember early outside = .error cause)
      ↔ c.pending = true ∨ c.innermost? ≠ some .object := by
  obtain ⟨_ | ⟨⟨kind, count⟩, outer⟩, pending⟩ := c
  · cases pending <;> simp [beforeMember, innermost?]
  · cases kind <;> cases pending <;> simp [beforeMember, innermost?]

theorem close_misuse_iff (kind : ScopeKind) (bracket : String)
    : (∃ cause, c.close kind bracket = .error cause)
      ↔ c.pending = true ∨ c.innermost? ≠ some kind := by
  obtain ⟨_ | ⟨⟨other, count⟩, outer⟩, pending⟩ := c
  · cases pending <;> simp [close, innermost?]
  · by_cases same : other = kind <;> cases pending <;> simp [close, innermost?, same]

theorem map_eq_error_iff {before : Except Misuse Plan} {continued : Plan → Plan}
    : (∃ cause, before.map continued = .error cause) ↔ ∃ cause, before = .error cause := by
  cases before <;> simp [Except.map]

/-- A token has no plan exactly where it is misplaced, by the kinds of tokens. -/
theorem plan_misuse_iff (token : Token)
    : (∃ cause, c.plan token = .error cause) ↔ c.Misplaces token := by
  cases token with
  | openObject | openArray | scalar | raw =>
      exact map_eq_error_iff.trans c.beforeValue_misuse_iff
  | closeObject => exact c.close_misuse_iff .object _
  | closeArray => exact c.close_misuse_iff .array _
  | name => exact map_eq_error_iff.trans (c.beforeMember_misuse_iff _ _)
  | rawMembers text =>
      simp only [plan, Misplaces, String.isEmpty_iff]
      split
      · rename_i empty
        simp [empty]
      · rename_i filled
        rw [map_eq_error_iff, beforeMember_misuse_iff, and_iff_right filled]

/-- Behind a name its value is in place. -/
theorem not_misplaces_of_name {c : Cursor} {name : String} {p : Plan} {value : Token}
    (planned : c.plan (.name name) = .ok p) (valued : value.IsValue)
    : ¬p.landing.Misplaces value := by
  obtain ⟨before, _, rfl⟩ := map_eq_ok_iff.mp planned
  cases value with
  | openObject | openArray | scalar | raw => simp [Misplaces, Plan.landAt]
  | closeObject | closeArray | name | rawMembers => cases valued

end Cursor

-----------------------------------------------------------------------------------------
-- Calls on a stream that may break
-----------------------------------------------------------------------------------------

/-- What a member call brings behind the name is a value. Any other call is complete in itself. -/
def Call.Complete : Call → Prop
  | .member _ value => value.IsValue
  | _ => True

namespace Writer

/-- All pieces are accepted, or the stream breaks at one of them, by induction on them. -/
theorem carryOut_cases (writer : Writer) (landing : Cursor) (pieces : List Piece)
    : (∃ stream, writer.carryOut landing pieces = (⟨stream, landing⟩, .ok ()))
      ∨ ∃ piece ∈ pieces, ∃ stream,
          writer.carryOut landing pieces = (⟨stream, piece.refused⟩, .error .broken) := by
  induction pieces generalizing writer with
  | nil => exact .inl ⟨writer.stream, rfl⟩
  | cons piece rest ih =>
      rw [Writer.carryOut]
      rcases writer.stream.offer piece.text with ⟨stream, _ | _⟩
      · exact .inr ⟨piece, List.mem_cons_self, stream, rfl⟩
      · rcases ih ⟨stream, writer.cursor⟩ with accepted | ⟨other, member, broken⟩
        · exact .inl accepted
        · exact .inr ⟨other, List.mem_cons_of_mem piece member, broken⟩

/-- A flush succeeds, or the stream breaks. -/
theorem flush_cases (writer : Writer)
    : writer.flush = .ok () ∨ writer.flush = .error .broken := by
  rw [flush]
  split
  · exact .inl rfl
  · exact .inr rfl

variable {writer : Writer} {token : Token}

/-- A misplaced token is refused and leaves the writer as it is. -/
theorem write_of_misplaced (misplaced : writer.cursor.Misplaces token)
    : ∃ cause, writer.write token = (writer, .error (.misuse cause)) := by
  obtain ⟨cause, planned⟩ := (writer.cursor.plan_misuse_iff token).mpr misplaced
  exact ⟨cause, by rw [write, planned]⟩

/-- A token in place is written, or the stream breaks. -/
theorem write_of_placed (placed : ¬writer.cursor.Misplaces token)
    : ∃ p, writer.cursor.plan token = .ok p
        ∧ ((∃ stream, writer.write token = (⟨stream, p.landing⟩, .ok ()))
          ∨ ∃ after, writer.write token = (after, .error .broken)) := by
  cases planned : writer.cursor.plan token with
  | error cause => exact absurd ((writer.cursor.plan_misuse_iff token).mp ⟨cause, planned⟩) placed
  | ok p =>
      refine ⟨p, rfl, ?_⟩
      rw [write, planned]
      rcases writer.carryOut_cases p.landing p.pieces with accepted | ⟨_, _, stream, broken⟩
      · exact .inl accepted
      · exact .inr ⟨_, broken⟩

variable {call : Call}

/-- A misplaced call is refused and leaves the writer as it is, by the kinds of calls. -/
theorem call_of_misplaced (misplaced : writer.cursor.MisplacesCall call)
    : ∃ cause, writer.call call = (writer, .error (.misuse cause)) := by
  cases call with
  | one token =>
      have here : writer.cursor.Misplaces token := misplaced
      obtain ⟨cause, refused⟩ := write_of_misplaced here
      exact ⟨cause, refused⟩
  | member name value =>
      have atName : writer.cursor.Misplaces (.name name) := misplaced
      obtain ⟨cause, refused⟩ := write_of_misplaced atName
      exact ⟨cause, by rw [Writer.call, writeAll, refused]⟩
  | flush => cases misplaced

/-- A call in place succeeds, or the stream breaks. A member that began with its name is not refused
at its value, because the name left the writer waiting for it.
-/
theorem call_of_placed (complete : call.Complete) (placed : ¬writer.cursor.MisplacesCall call)
    : (writer.call call).2 = .ok () ∨ (writer.call call).2 = .error .broken := by
  cases call with
  | one token =>
      have here : ¬writer.cursor.Misplaces token := placed
      rw [Writer.call]
      obtain ⟨p, _, ⟨stream, written⟩ | ⟨after, broken⟩⟩ := write_of_placed here
      · exact .inl (by rw [written])
      · exact .inr (by rw [broken])
  | member name value =>
      have atName : ¬writer.cursor.Misplaces (.name name) := placed
      rw [Writer.call, writeAll]
      obtain ⟨p, planned, ⟨stream, written⟩ | ⟨after, broken⟩⟩ := write_of_placed atName
      · have waiting := Cursor.not_misplaces_of_name planned complete
        obtain ⟨q, _, ⟨stream, valued⟩ | ⟨after, broken⟩⟩ :=
          @write_of_placed ⟨stream, p.landing⟩ value waiting
        · exact .inl (by simp only [written, writeAll_single, valued])
        · exact .inr (by simp only [written, writeAll_single, broken])
      · exact .inr (by rw [broken])
  | flush => exact writer.flush_cases

/-- A call is refused as a misuse exactly where it is misplaced. -/
theorem call_misuse_iff (complete : call.Complete)
    : (∃ cause, (writer.call call).2 = .error (.misuse cause))
      ↔ writer.cursor.MisplacesCall call := by
  constructor
  · rintro ⟨cause, refused⟩
    refine Classical.byContradiction fun placed => ?_
    rcases call_of_placed complete placed with written | broken
    · rw [written] at refused
      cases refused
    · rw [broken] at refused
      cases refused
  · intro misplaced
    obtain ⟨cause, refused⟩ := call_of_misplaced misplaced
    exact ⟨cause, by rw [refused]⟩

/-- A stream without a limit does not break, by induction on the tokens. -/
theorem writeAll_unbroken (unlimited : writer.stream.room = none) (tokens : List Token)
    : (writer.writeAll tokens).2 ≠ .error .broken := by
  induction tokens generalizing writer with
  | nil => simp [writeAll]
  | cons token rest ih =>
      rw [writeAll]
      cases planned : writer.cursor.plan token with
      | error cause => simp [write, planned]
      | ok p =>
          rw [write_unlimited planned unlimited]
          exact @ih ⟨writer.stream.extend p.text, p.landing⟩ unlimited

theorem call_unbroken (unlimited : writer.stream.room = none) (call : Call)
    : (writer.call call).2 ≠ .error .broken := by
  cases call with
  | one token =>
      rw [Writer.call, ← writeAll_single]
      exact writeAll_unbroken unlimited [token]
  | member name value => exact writeAll_unbroken unlimited [.name name, value]
  | flush => simp [Writer.call, flush_unlimited unlimited]

end Writer

-----------------------------------------------------------------------------------------
-- Dropping a misplaced call
-----------------------------------------------------------------------------------------

/-- What happens to a writer: a call, or a stream that from here on has other room and can be
flushed or not. So a stream may break in one call and take the next.
-/
inductive Turn where
  | call (call : Call)
  | room (room : Option Limit)

namespace Writer

/-- One turn, with the answer if it was a call. -/
def turn (writer : Writer) : Turn → Writer × List (Except Fault Unit)
  | .call call =>
    let answered := writer.call call
    (answered.1, [answered.2])
  | .room room => ({ writer with stream := { writer.stream with room } }, [])

/-- The turns in order, whether the calls fail or not, with the answers to the calls. -/
def runTurns (writer : Writer) : List Turn → Writer × List (Except Fault Unit)
  | [] => (writer, [])
  | turn :: rest =>
    let here := writer.turn turn
    let later := here.1.runTurns rest
    (later.1, here.2 ++ later.2)

/-- Turns go on where the turns before them ended, by induction on those before. -/
theorem runTurns_append (writer : Writer) (before after : List Turn)
    : writer.runTurns (before ++ after)
      = (((writer.runTurns before).1.runTurns after).1,
        (writer.runTurns before).2 ++ ((writer.runTurns before).1.runTurns after).2) := by
  induction before generalizing writer with
  | nil => rfl
  | cons turn rest ih => simp [runTurns, ih]

/-- A misplaced call has no effect. Whatever happened before, a call is refused as a misuse exactly
where it is misplaced, and a call in place succeeds unless the stream breaks. The refusal leaves the
writer and its stream as they were, so that without the call everything later is the same.
-/
theorem runTurns_misplaced (writer : Writer) (before : List Turn) {call : Call}
    (complete : call.Complete)
    : let reached := (writer.runTurns before).1
      let asked := reached.call call
      ((∃ cause, asked.2 = .error (.misuse cause)) ↔ reached.cursor.MisplacesCall call)
      ∧ (reached.stream.room = none → ¬reached.cursor.MisplacesCall call → asked.2 = .ok ())
      ∧ ∀ cause, asked.2 = .error (.misuse cause) →
          asked.1 = reached
          ∧ ∀ after,
              let earlier := (writer.runTurns before).2
              let later := reached.runTurns after
              writer.runTurns (before ++ .call call :: after)
                = (later.1, earlier ++ .error (.misuse cause) :: later.2)
              ∧ writer.runTurns (before ++ after) = (later.1, earlier ++ later.2) := by
  intro reached asked
  refine ⟨call_misuse_iff complete, ?_, ?_⟩
  · intro unlimited placed
    rcases call_of_placed complete placed with written | broken
    · exact written
    · exact absurd broken (call_unbroken unlimited call)
  · intro cause refused
    have misplaced := (call_misuse_iff complete).mp ⟨cause, refused⟩
    obtain ⟨other, same⟩ := call_of_misplaced misplaced
    have still : asked.1 = reached := congrArg Prod.fst same
    refine ⟨still, ?_⟩
    intro after
    refine ⟨?_, writer.runTurns_append before after⟩
    rw [runTurns_append]
    simp only [runTurns, turn]
    rw [still, refused]
    rfl

/-- A stream that breaks inside of the first element of an array and then recovers. -/
def recovered : List Turn :=
  [.call (.one .openArray), .call (.one (.raw "12345")), .room none]

theorem runTurns_misplaced_recovered
    : let call := Call.member "b" (.scalar (.int 2))
      let after := [.room (some ⟨1, false⟩), .call .flush, .call (.one .closeArray)]
      let writer := start (.limited 3) .root
      let reached := (writer.runTurns recovered).1
      call.Complete
      ∧ reached.cursor = ⟨[⟨.array, 1⟩], false⟩
      ∧ (reached.call call).1 = reached
      ∧ (writer.runTurns (recovered ++ .call call :: after)).2
          = [.ok (), .error .broken, .error (.misuse .nameOutsideObject), .error .broken, .ok ()]
      ∧ (writer.runTurns (recovered ++ .call call :: after)).1
          = (writer.runTurns (recovered ++ after)).1 := by
  intro call after writer reached
  have complete : call.Complete := trivial
  have refused : (reached.call call).2 = .error (.misuse .nameOutsideObject) := rfl
  obtain ⟨still, dropped⟩ := (runTurns_misplaced writer recovered complete).2.2 _ refused
  obtain ⟨asked, unasked⟩ := dropped after
  refine ⟨complete, rfl, still, ?_, ?_⟩
  · rw [asked]
    rfl
  · rw [asked, unasked]

end Writer

end SeriesWire.Json
