import SeriesWire.Proofs.Json.Likeness
import SeriesWire.Proofs.Json.Truncation

/-! What was written on its own may be spliced in as if it had been written in place.
A fragment differs from the same calls made in place by no more than the comma in front of its first
member. A stream that breaks inside of it gets the same bytes, but not the same calls afterwards.
-/

namespace SeriesWire.Json

variable {outer : List Scope}

-----------------------------------------------------------------------------------------
-- Outermost scopes with members
-----------------------------------------------------------------------------------------

namespace Cursor

/-- The outermost scope, if there is one, has members. -/
def Begun (c : Cursor) : Prop :=
  ∀ base ∈ c.scopes.getLast?, base.count ≠ 0

variable {c : Cursor}

theorem begun_advance {scope : Scope} {rest : List Scope} (begun : Begun ⟨scope :: rest, c.pending⟩)
    : (c.advance scope rest).landing.Begun := by
  cases rest with
  | nil => simp [Begun, advance]
  | cons => exact begun

/-- What comes before a value leaves the cursor inside of its scope. -/
theorem Begun.beforeValue (begun : c.Begun) (inside : c.scopes ≠ []) {p : Plan}
    (planned : c.beforeValue = .ok p)
    : p.landing.scopes ≠ [] ∧ p.landing.Begun := by
  obtain ⟨_ | ⟨⟨kind, count⟩, rest⟩, pending⟩ := c
  · exact absurd rfl inside
  · cases kind with
    | array =>
        obtain rfl := Except.ok.inj planned
        exact ⟨List.cons_ne_nil _ _, begun_advance begun⟩
    | object =>
        cases pending with
        | false => cases planned
        | true =>
            obtain rfl := Except.ok.inj planned
            exact ⟨inside, begun⟩

theorem Begun.beforeMember (begun : c.Begun) {early outside : Misuse} {p : Plan}
    (planned : c.beforeMember early outside = .ok p)
    : p.landing.Begun := by
  obtain ⟨_ | ⟨⟨kind, count⟩, rest⟩, _ | _⟩ := c
  · cases planned
  · cases planned
  · cases kind with
    | array => cases planned
    | object =>
        obtain rfl := Except.ok.inj planned
        exact begun_advance begun
  · cases planned

theorem Begun.close (begun : c.Begun) {kind : ScopeKind} {bracket : String} {p : Plan}
    (planned : c.close kind bracket = .ok p)
    : p.landing.Begun := by
  obtain ⟨_ | ⟨scope, rest⟩, _ | _⟩ := c
  · cases planned
  · cases planned
  · simp only [Cursor.close, Bool.false_eq_true, if_false] at planned
    split at planned
    · obtain rfl := Except.ok.inj planned
      cases rest with
      | nil => simp [Begun, Plan.andWrite]
      | cons => exact begun
    · cases planned
  · cases planned

/-- A further scope is not the outermost one. -/
theorem Begun.push (begun : c.Begun) (inside : c.scopes ≠ []) (kind : ScopeKind)
    : (c.push kind).Begun := by
  obtain ⟨_ | ⟨scope, rest⟩, pending⟩ := c
  · exact absurd rfl inside
  · exact begun

/-- Members do not go away, by the kinds of tokens. -/
theorem Begun.plan (begun : c.Begun) (inside : c.scopes ≠ []) {token : Token} {p : Plan}
    (planned : c.plan token = .ok p)
    : p.landing.Begun := by
  cases token with
  | openObject | openArray =>
      obtain ⟨before, reached, rfl⟩ := map_eq_ok_iff.mp planned
      obtain ⟨still, members⟩ := begun.beforeValue inside reached
      exact members.push still _
  | closeObject | closeArray => exact begun.close planned
  | scalar | raw =>
      obtain ⟨before, reached, rfl⟩ := map_eq_ok_iff.mp planned
      exact (begun.beforeValue inside reached).2
  | name =>
      obtain ⟨before, reached, rfl⟩ := map_eq_ok_iff.mp planned
      have members := begun.beforeMember reached
      exact members
  | rawMembers text =>
      simp only [Cursor.plan] at planned
      split at planned
      · obtain rfl := Except.ok.inj planned
        exact begun
      · obtain ⟨before, reached, rfl⟩ := map_eq_ok_iff.mp planned
        have members := begun.beforeMember reached
        exact members

end Cursor

-----------------------------------------------------------------------------------------
-- First members
-----------------------------------------------------------------------------------------

/-- The comma in front of what follows so many members. -/
def comma (count : Nat) : String :=
  if count = 0 then "" else ","

/-- How a token is planned at the start of a fragment, and how it is planned in place. -/
inductive First (kind : ScopeKind) (count : Nat) (outer : List Scope)
    : Except Misuse Plan → Except Misuse Plan → Prop
  | misplaced (cause : Misuse) : First kind count outer (.error cause) (.error cause)
  | nothing
    : First kind count outer (.ok ⟨[], .inside kind⟩) (.ok ⟨[], .amid kind count outer⟩)
  | closed {p : Plan} {planned : Except Misuse Plan} (left : p.landing.scopes = [])
    : First kind count outer (.ok p) planned
  | member {p q : Plan} (filled : p.text ≠ "") (text : q.text = comma count ++ p.text)
    (like : p.landing.Like outer q.landing) (begun : p.landing.Begun)
    : First kind count outer (.ok p) (.ok q)

/-- The first member of a scope, up to where its text begins. -/
def firstMember (kind : ScopeKind) (count : Nat) (outer : List Scope) : Plan :=
  (Cursor.amid kind count outer).advance ⟨kind, count⟩ outer

theorem text_firstMember (kind : ScopeKind) (count : Nat) (outer : List Scope)
    : (firstMember kind count outer).text = comma count :=
  Cursor.text_advance _ _ _

/-- A first member is the same in place but for the comma, whatever else it leaves to be written. -/
theorem First.of_write {kind : ScopeKind} {count : Nat} {outer : List Scope}
    (write : Plan → Plan) {text : String} (filled : text ≠ "")
    (adds : ∀ p, (write p).text = p.text ++ text)
    (like : ∀ p q, p.landing.Like outer q.landing → (write p).landing.Like outer (write q).landing)
    (begun : ∀ p, p.landing.Begun → p.landing.scopes ≠ [] → (write p).landing.Begun)
    : First kind count outer (.ok (write (firstMember kind 0 [])))
        (.ok (write (firstMember kind count outer))) := by
  have alone : (firstMember kind 0 []).landing.Like outer (firstMember kind count outer).landing :=
    ⟨.cons ⟨rfl, by simp⟩ (List.forall₂_same.mpr fun scope _ => .refl scope), rfl⟩
  have members : (firstMember kind 0 []).landing.Begun := by
    simp [Cursor.Begun, firstMember, Cursor.advance]
  have unseparated : comma 0 = "" := rfl
  refine .member ?_ ?_ (like _ _ alone) (begun _ members (List.cons_ne_nil _ _))
  · rwa [adds, text_firstMember, unseparated, String.empty_append]
  · rw [adds, adds, text_firstMember, text_firstMember, unseparated, String.empty_append]

/-- At the start of a fragment a token is misplaced as it is in place, or adds nothing, or closes
the scope, or is the first member, by the kinds of scopes and tokens.
-/
theorem first_plan (kind : ScopeKind) (count : Nat) (outer : List Scope) {token : Token}
    (filled : token ≠ .raw "")
    : First kind count outer ((Cursor.inside kind).plan token)
        ((Cursor.amid kind count outer).plan token) := by
  have written {text : String} (filled : text ≠ "")
      : First kind count outer (.ok ((firstMember kind 0 []).andWrite text))
          (.ok ((firstMember kind count outer).andWrite text)) :=
    .of_write (·.andWrite text) filled (fun p => p.text_andWrite text) (fun _ _ like => like)
      fun _ begun _ => begun
  have opened (scope : ScopeKind) {bracket : String} (filled : bracket ≠ "")
      : First kind count outer
          (.ok (((firstMember kind 0 []).andWrite bracket).landAt
            ((firstMember kind 0 []).landing.push scope)))
          (.ok (((firstMember kind count outer).andWrite bracket).landAt
            ((firstMember kind count outer).landing.push scope))) :=
    .of_write (fun p => (p.andWrite bracket).landAt (p.landing.push scope)) filled
      (fun p => p.text_andWrite bracket) (fun _ _ like => like.push scope)
      fun _ begun inside => begun.push inside scope
  cases kind with
  | array =>
      cases token with
      | openObject => exact opened .object (by decide)
      | openArray => exact opened .array (by decide)
      | closeArray => exact .closed rfl
      | scalar value => exact written value.text_ne_empty
      | raw text => exact written fun empty => filled (congrArg Token.raw empty)
      | closeObject | name => exact .misplaced _
      | rawMembers text =>
          simp only [Cursor.plan]
          split
          · exact .nothing
          · exact .misplaced _
  | object =>
      cases token with
      | closeObject => exact .closed rfl
      | name name =>
          have filled : quoted name ++ ":" ≠ "" := by simp
          refine .of_write (fun p => ((p.andWrite (quoted name)).andWrite ":").landAt
            { p.landing with pending := true }) filled (fun p => ?_)
            (fun _ _ like => ⟨like.scopes, rfl⟩) fun _ begun _ => begun
          rw [Plan.text_landAt, Plan.text_andWrite, Plan.text_andWrite, String.append_assoc]
      | openObject | openArray | closeArray | scalar | raw => exact .misplaced _
      | rawMembers text =>
          simp only [Cursor.plan]
          split
          · exact .nothing
          · exact written (by simp_all)

-----------------------------------------------------------------------------------------
-- Fragments
-----------------------------------------------------------------------------------------

/-- Calls that write a fragment: none of them closes the scope that somebody else opened, the last
leaves only this scope open and no name without its value, and no text that they insert is empty.
-/
structure Fragment (kind : ScopeKind) (calls : List Call) : Prop where
  inside : (Writer.start .unlimited (.inside kind)).FindsOpen calls
  ended
    : ∃ count,
        ((Writer.start .unlimited (.inside kind)).run calls).1.cursor = .amid kind count []
  filled : ∀ call ∈ calls, Token.raw "" ∉ call.tokens

namespace Writer

/-- What was done so far: nothing at all, or the same text in both places but for the comma in front
of it. Afterwards the writers cannot tell where they are.
-/
inductive Beside (kind : ScopeKind) (count : Nat) (outer : List Scope) : Writer → Writer → Prop
  | fresh
    : Beside kind count outer (start .unlimited (.inside kind))
        (start .unlimited (.amid kind count outer))
  | begun {text : String} {c d : Cursor} (filled : text ≠ "") (like : c.Like outer d)
    (begun : c.Begun)
    : Beside kind count outer ⟨Stream.unlimited.extend text, c⟩
        ⟨Stream.unlimited.extend (comma count ++ text), d⟩

variable {kind : ScopeKind} {count : Nat} {outer : List Scope} {fragment placed : Writer}

theorem write_of_ok {c : Cursor} {token : Token} {p : Plan} (planned : c.plan token = .ok p)
    (text : String)
    : (Writer.mk (Stream.unlimited.extend text) c).write token
      = (⟨Stream.unlimited.extend (text ++ p.text), p.landing⟩, .ok ()) := by
  rw [write_unlimited planned rfl, Stream.extend_append]

theorem write_of_error {c : Cursor} {token : Token} {cause : Misuse}
    (planned : c.plan token = .error cause) (stream : Stream)
    : (Writer.mk stream c).write token = (⟨stream, c⟩, .error (.misuse cause)) := by
  rw [Writer.write, planned]

/-- A token of the fragment. Behind the first member it is planned alike in both places, and the
first member itself brings the comma.
-/
theorem Beside.write (beside : Beside kind count outer fragment placed) {token : Token}
    (filled : token ≠ .raw "") (inside : fragment.cursor.scopes ≠ [])
    (stays : (fragment.write token).1.cursor.scopes ≠ [])
    : Beside kind count outer (fragment.write token).1 (placed.write token).1
      ∧ (placed.write token).2 = (fragment.write token).2 := by
  cases beside with
  | fresh =>
      have first := first_plan kind count outer filled
      rw [start, start, ← Stream.extend_empty .unlimited] at *
      generalize alone : (Cursor.inside kind).plan token = planned,
        amid : (Cursor.amid kind count outer).plan token = other at first
      cases first with
      | misplaced cause =>
          rw [write_of_error alone, write_of_error amid, Stream.extend_empty]
          exact ⟨.fresh, rfl⟩
      | nothing =>
          rw [write_of_ok alone, write_of_ok amid, Plan.text_still, Plan.text_still,
            String.append_empty, Stream.extend_empty]
          exact ⟨.fresh, rfl⟩
      | closed left =>
          rw [write_of_ok alone] at stays
          exact absurd left stays
      | member some text like begun =>
          rw [write_of_ok alone, write_of_ok amid, String.empty_append, String.empty_append, text]
          exact ⟨.begun some like begun, rfl⟩
  | @begun before c d some like begun =>
      have agree := like.plan inside token
      generalize alone : c.plan token = planned, amid : d.plan token = other at agree
      cases agree with
      | misplaced cause =>
          rw [write_of_error alone, write_of_error amid]
          exact ⟨.begun some like begun, rfl⟩
      | planned alike =>
          rw [write_of_ok alone, write_of_ok amid, ← alike.text, String.append_assoc]
          exact ⟨.begun (by simp [some]) alike.landing (begun.plan inside alone), rfl⟩

theorem Beside.endless (beside : Beside kind count outer fragment placed)
    : fragment.stream.room = none := by
  cases beside with
  | fresh => rfl
  | begun => rfl

theorem Beside.flushes (beside : Beside kind count outer fragment placed)
    : placed.stream.flushes = fragment.stream.flushes := by
  cases beside with
  | fresh => rfl
  | begun => rfl

/-- A call of the fragment, of one token or two. A name does not leave the scope. -/
theorem Beside.call (beside : Beside kind count outer fragment placed) {call : Call}
    (filled : Token.raw "" ∉ call.tokens) (inside : fragment.cursor.scopes ≠ [])
    (stays : (fragment.call call).1.cursor.scopes ≠ [])
    : Beside kind count outer (fragment.call call).1 (placed.call call).1
      ∧ (placed.call call).2 = (fragment.call call).2 := by
  cases call with
  | flush => exact ⟨beside, by rw [Writer.call, Writer.call, flush, flush, beside.flushes]⟩
  | one token =>
      exact beside.write (fun empty => filled (by simp [Call.tokens, empty])) inside stays
  | member name value =>
      have named (next : Writer) (written : fragment.write (.name name) = (next, .ok ()))
          : next.cursor.scopes ≠ [] :=
        scopes_of_name beside.endless written
      have first := beside.write (by simp : Token.name name ≠ .raw "") inside
      rw [Writer.call, writeAll] at stays
      rw [Writer.call, Writer.call, writeAll, writeAll]
      generalize fragment.write (.name name) = alone, placed.write (.name name) = amid
        at named first stays
      obtain ⟨next, answer⟩ := alone
      obtain ⟨following, other⟩ := amid
      cases answer with
      | error fault =>
          obtain ⟨behind, rfl⟩ := first stays
          exact ⟨behind, rfl⟩
      | ok _ =>
          have opened := named next rfl
          obtain ⟨behind, rfl⟩ := first opened
          simp only [writeAll_single] at stays ⊢
          exact behind.write (fun empty => filled (by simp [Call.tokens, empty])) opened stays

/-- The calls of a fragment, as long as its scope is open, by induction on them. -/
theorem Beside.run {calls : List Call} (beside : Beside kind count outer fragment placed)
    (filled : ∀ call ∈ calls, Token.raw "" ∉ call.tokens) (inside : fragment.FindsOpen calls)
    (stays : (fragment.run calls).1.cursor.scopes ≠ [])
    : Beside kind count outer (fragment.run calls).1 (placed.run calls).1
      ∧ (placed.run calls).2 = (fragment.run calls).2 := by
  induction calls generalizing fragment placed with
  | nil => exact ⟨beside, rfl⟩
  | cons call rest ih =>
      have later : (fragment.call call).1.FindsOpen rest := by
        intro place below
        exact inside (place + 1) (Nat.succ_lt_succ below)
      have opened : (fragment.call call).1.cursor.scopes ≠ [] := by
        cases rest with
        | nil => exact stays
        | cons => exact later 0 (Nat.succ_pos _)
      have here := inside 0 (Nat.succ_pos _)
      obtain ⟨behind, answer⟩ := beside.call (filled call (by simp)) here opened
      obtain ⟨last, answers⟩ :=
        ih behind (fun other member => filled other (by simp [member])) later stays
      exact ⟨last, congrArg₂ List.cons answer answers⟩

-----------------------------------------------------------------------------------------
-- Splicing
-----------------------------------------------------------------------------------------

/-- What puts a fragment in its place: its members, or its values unless there are none. -/
def splicing : ScopeKind → String → List Call
  | .object, text => [.one (.rawMembers text)]
  | .array, text => if text.isEmpty then [] else [.one (.raw text)]

/-- No fragment is spliced in by doing nothing. -/
theorem run_splicing_empty (writer : Writer) (kind : ScopeKind)
    : (writer.run (splicing kind "")).1 = writer
      ∧ ∀ answer ∈ (writer.run (splicing kind "")).2, answer = .ok () := by
  cases kind with
  | object => exact ⟨rfl, fun answer member => List.mem_singleton.mp member⟩
  | array => exact ⟨rfl, nofun⟩

/-- A fragment is spliced in by one token, which is planned like a first member. -/
theorem plan_splicing (kind : ScopeKind) (count : Nat) (outer : List Scope) {text : String}
    (filled : text ≠ "")
    : ∃ token,
        splicing kind text = [.one token]
        ∧ (Cursor.amid kind count outer).plan token
          = .ok ((firstMember kind count outer).andWrite text) := by
  have some : text.isEmpty = false := by simpa using filled
  cases kind with
  | object => exact ⟨.rawMembers text, rfl, by rw [Cursor.plan, some]; rfl⟩
  | array => exact ⟨.raw text, by rw [splicing, some]; rfl, rfl⟩

theorem text_splicing (kind : ScopeKind) (count : Nat) (outer : List Scope) (text : String)
    : ((firstMember kind count outer).andWrite text).text = comma count ++ text := by
  rw [Plan.text_andWrite, text_firstMember]

/-- On a stream without a limit, a fragment that is spliced in counts as one member. -/
theorem run_splicing_filled (kind : ScopeKind) (count : Nat) (outer : List Scope) {text : String}
    (filled : text ≠ "")
    : (start .unlimited (.amid kind count outer)).run (splicing kind text)
      = (⟨Stream.unlimited.extend (comma count ++ text), .amid kind (count + 1) outer⟩,
          [.ok ()]) := by
  obtain ⟨token, single, planned⟩ := plan_splicing kind count outer filled
  have written := write_of_ok planned ""
  rw [text_splicing, Stream.extend_empty, String.empty_append] at written
  rw [single, run, Writer.call, start, written]
  rfl

/-- Pieces that were all accepted had room on the stream, by induction on them. -/
theorem fits_of_carryOut {writer : Writer} {landing : Cursor} {pieces : List Piece}
    (accepted : (writer.carryOut landing pieces).2 = .ok ())
    : writer.stream.Fits (String.join (pieces.map Piece.text)).toUTF8 := by
  induction pieces generalizing writer with
  | nil => exact fun room _ => Nat.zero_le room.bytes
  | cons piece rest ih =>
      rw [List.map_cons, String.join_cons, String.toUTF8, String.toByteArray_append,
        Stream.fits_append]
      rw [carryOut] at accepted
      by_cases fits : writer.stream.Fits piece.text.toUTF8
      · rw [Stream.offer_of_fits fits] at accepted
        exact ⟨fits, ih accepted⟩
      · rw [Stream.offer_of_not_fits fits] at accepted
        cases accepted

/-- A stream that took a fragment had room for it. -/
theorem fits_of_splicing {kind : ScopeKind} {count : Nat} {outer : List Scope} {text : String}
    {stream : Stream}
    (accepted : ∀ answer ∈ ((start stream (.amid kind count outer)).run (splicing kind text)).2,
      answer = .ok ())
    : stream.Fits ((start .unlimited (.amid kind count outer)).run
        (splicing kind text)).1.stream.accepted := by
  by_cases filled : text = ""
  · obtain ⟨still, _⟩ := run_splicing_empty (start .unlimited (.amid kind count outer)) kind
    rw [filled, still]
    exact fun room _ => Nat.zero_le room.bytes
  · obtain ⟨token, single, planned⟩ := plan_splicing kind count outer filled
    rw [run_splicing_filled kind count outer filled]
    rw [single, run, Writer.call, write, start, planned] at accepted
    have fits := fits_of_carryOut (accepted _ (List.mem_singleton.mpr rfl))
    rw [← Plan.text, text_splicing] at fits
    rwa [Stream.extend, Stream.unlimited, ByteArray.empty_append]

/-- A run on any stream that can be flushed offers what it writes to a stream without a limit. If
that fits, it ends with the same cursor and the same answers.
-/
theorem run_start {cursor : Cursor} {calls : List Call} {whole : Writer × List (Except Fault Unit)}
    (unlimited : (start .unlimited cursor).run calls = whole) {stream : Stream}
    (kept : stream.flushes = true)
    : ((start stream cursor).run calls).1.stream = stream.after whole.1.stream.accepted
      ∧ (stream.Fits whole.1.stream.accepted
        → (start stream cursor).run calls
          = (⟨stream.after whole.1.stream.accepted, whole.1.cursor⟩, whole.2)) := by
  obtain ⟨added, next, answers, here⟩ := truncates_run calls (start .unlimited cursor)
  have free : Stream.unlimited.Fits added := nofun
  obtain rfl : (⟨Stream.unlimited.after added, next.cursor⟩, answers) = whole :=
    (here.fitted .unlimited rfl free).symm.trans unlimited
  have accepted : (Stream.unlimited.after added).accepted = added := ByteArray.empty_append
  rw [accepted]
  exact ⟨here.offered stream kept, here.fitted stream kept⟩

/-- A stream that did not have room for what was written takes nothing any more. -/
theorem run_exhausted {writer : Writer} {stream : Stream} (kept : stream.flushes = true)
    {added : ByteArray} (ended : writer.stream = stream.after added) (breaks : ¬stream.Fits added)
    (later : List Call)
    : (writer.run later).1.stream = writer.stream := by
  obtain ⟨more, next, answers, here⟩ := truncates_run later writer
  have still : writer.stream.flushes = true := by rw [ended, stream.flushes_after, kept]
  have offered : (writer.run later).1.stream = writer.stream.after more :=
    here.offered writer.stream still
  rw [ended] at offered ⊢
  exact offered.trans (Stream.after_of_not_fits breaks)

theorem eq_of_extend_unlimited {text other : String}
    (same : Stream.unlimited.extend text = Stream.unlimited.extend other)
    : text = other := by
  have bytes := congrArg Stream.accepted same
  simp only [Stream.extend, Stream.unlimited, ByteArray.empty_append] at bytes
  exact String.toByteArray_inj.mp bytes

/-- Members that were counted one by one are as good as one. -/
theorem like_of_counted {kind : ScopeKind} {number count : Nat} {outer : List Scope} {d : Cursor}
    (like : Cursor.Like outer (.amid kind number []) d) (some : number ≠ 0)
    : Cursor.Like [] (.amid kind (count + 1) outer) d := by
  obtain ⟨other, others, rfl, ⟨same, members⟩, tail⟩ := like.heads
  refine ⟨.cons ⟨same, ?_⟩ (by simpa using tail), rfl⟩
  simpa [some] using members

/-- On a stream without a limit, a fragment that is spliced in leaves the writer like one that wrote
it in place, with the same text.
-/
theorem run_splicing_unlimited {kind : ScopeKind} {calls : List Call}
    (fragment : Fragment kind calls)
    : ∃ text,
        ((start .unlimited (.inside kind)).run calls).1.stream.accepted = text.toUTF8
        ∧ ∀ count outer,
            let writer := start .unlimited (.amid kind count outer)
            (writer.run calls).2 = ((start .unlimited (.inside kind)).run calls).2
            ∧ (writer.run (splicing kind text)).1.Like (writer.run calls).1
            ∧ ∀ answer ∈ (writer.run (splicing kind text)).2, answer = .ok () := by
  obtain ⟨number, ended⟩ := fragment.ended
  have beside (count : Nat) (outer : List Scope) :=
    (@Beside.fresh kind count outer).run fragment.filled fragment.inside
      (by rw [ended]; exact List.cons_ne_nil _ _)
  generalize (start .unlimited (.inside kind)).run calls = alone at ended beside
  obtain ⟨writer, answers⟩ := alone
  have produced : ∃ text : String, writer.stream = Stream.unlimited.extend text := by
    obtain ⟨one, _⟩ := beside 0 []
    generalize (start .unlimited (.amid kind 0 [])).run calls = placed at one
    obtain ⟨placed, others⟩ := placed
    cases one with
    | fresh => exact ⟨"", (Stream.extend_empty _).symm⟩
    | begun => exact ⟨_, rfl⟩
  obtain ⟨text, produced⟩ := produced
  refine ⟨text, by rw [produced]; exact ByteArray.empty_append, fun count outer => ?_⟩
  obtain ⟨one, same⟩ := beside count outer
  refine ⟨same, ?_⟩
  generalize (start .unlimited (.amid kind count outer)).run calls = placed at one
  obtain ⟨placed, others⟩ := placed
  cases one with
  | fresh =>
      rw [← Stream.extend_empty .unlimited] at produced
      obtain rfl := eq_of_extend_unlimited produced
      obtain ⟨still, accepted⟩ :=
        run_splicing_empty (start .unlimited (.amid kind count outer)) kind
      rw [still]
      exact ⟨⟨rfl, .refl _⟩, accepted⟩
  | begun filled like begun =>
      obtain rfl := eq_of_extend_unlimited produced
      obtain rfl : _ = Cursor.amid kind number [] := ended
      have members : number ≠ 0 := begun ⟨kind, number⟩ rfl
      rw [run_splicing_filled kind count outer filled]
      exact ⟨⟨rfl, like_of_counted like members⟩, fun answer member => List.mem_singleton.mp member⟩

/-- On a stream that can be flushed, the bytes of a fragment that is spliced in are those of one
that is written in place, and if they fit, so is everything else.
-/
theorem run_splicing_flushed {kind : ScopeKind} {calls : List Call} {text : String}
    {stream : Stream} (kept : stream.flushes = true) {count : Nat} {outer : List Scope}
    {answers : List (Except Fault Unit)}
    (like : ((start .unlimited (.amid kind count outer)).run (splicing kind text)).1.Like
      ((start .unlimited (.amid kind count outer)).run calls).1)
    (same : ((start .unlimited (.amid kind count outer)).run calls).2 = answers)
    : let writer := start stream (.amid kind count outer)
      let spliced := writer.run (splicing kind text)
      let placed := writer.run calls
      let whole := (start .unlimited (.amid kind count outer)).run (splicing kind text)
      (∀ later, (spliced.1.run later).1.stream = (placed.1.run later).1.stream)
      ∧ (stream.Fits whole.1.stream.accepted
        → spliced.1.Like placed.1 ∧ spliced.2 = whole.2 ∧ placed.2 = answers) := by
  intro writer spliced placed whole
  obtain ⟨offered, fitted⟩ :=
    @run_start (.amid kind count outer) (splicing kind text) _ rfl stream kept
  obtain ⟨ended, follows⟩ := @run_start (.amid kind count outer) calls _ rfl stream kept
  rw [← like.stream] at ended follows
  have alike (fits : stream.Fits whole.1.stream.accepted)
      : spliced.1.Like placed.1 ∧ spliced.2 = whole.2 ∧ placed.2 = answers := by
    rw [show spliced = _ from fitted fits, show placed = _ from follows fits]
    exact ⟨⟨rfl, like.cursor⟩, rfl, same⟩
  refine ⟨fun later => ?_, alike⟩
  by_cases fits : stream.Fits whole.1.stream.accepted
  · exact ((alike fits).1.run later).1.stream
  · rw [run_exhausted kept offered fits later, run_exhausted kept ended fits later]
    exact offered.trans ended.symm

/-- Splicing in what a fragment wrote is writing it in place: on whatever stream, the bytes are the
same, also those of all later calls. If the stream takes the fragment, all later calls are answered
alike, and the calls in place are answered as in the fragment, except that a flush is answered by
the stream. A stream without a limit does take it.
-/
theorem run_splicing {kind : ScopeKind} {calls : List Call} (fragment : Fragment kind calls)
    : ∃ text,
        ((start .unlimited (.inside kind)).run calls).1.stream.accepted = text.toUTF8
        ∧ ∀ stream count outer,
            let writer := start stream (.amid kind count outer)
            let spliced := writer.run (splicing kind text)
            let placed := writer.run calls
            (∀ later, (spliced.1.run later).1.stream = (placed.1.run later).1.stream)
            ∧ ((∀ answer ∈ spliced.2, answer = .ok ())
              → (stream.flushes = true
                  → placed.2 = ((start .unlimited (.inside kind)).run calls).2)
                ∧ ∀ later, (spliced.1.run later).2 = (placed.1.run later).2)
            ∧ (stream.room = none → ∀ answer ∈ spliced.2, answer = .ok ()) := by
  obtain ⟨text, produced, unlimited⟩ := run_splicing_unlimited fragment
  refine ⟨text, produced, fun stream count outer => ?_⟩
  intro writer spliced placed
  obtain ⟨answers, like, all⟩ := unlimited count outer
  have taken := @fits_of_splicing kind count outer text stream
  let flushed := start (stream.withFlushes true) (.amid kind count outer)
  have here : writer = flushed.withFlushes stream.flushes := by
    simp only [writer, flushed, Writer.withFlushes, start, stream.withFlushes_flushes]
  have reached (made : List Call)
      : (writer.run made).1 = (flushed.run made).1.withFlushes stream.flushes :=
    here ▸ run_withFlushes stream.flushes flushed made
  obtain ⟨bytes, rest⟩ := run_splicing_flushed stream.flushes_withFlushes_true like answers
  refine ⟨fun later => ?_, fun accepted => ⟨fun kept => ?_, fun later => ?_⟩, fun endless => ?_⟩
  · rw [reached, reached, run_withFlushes, run_withFlushes]
    exact congrArg (Stream.withFlushes · stream.flushes) (bytes later)
  · obtain ⟨_, alike⟩ := run_splicing_flushed kept like answers
    exact (alike (taken accepted)).2.2
  · obtain ⟨same, _⟩ := rest (Stream.fits_withFlushes.mpr (taken accepted))
    have last : spliced.1.Like placed.1 := by
      rw [reached, reached]
      exact ⟨congrArg (Stream.withFlushes · stream.flushes) same.stream, same.cursor⟩
    exact (last.run later).2
  · have kept : stream.flushes = true := by simp [Stream.flushes, endless]
    obtain ⟨_, alike⟩ := run_splicing_flushed kept like answers
    have fits : stream.Fits ((start .unlimited (.amid kind count outer)).run
        (splicing kind text)).1.stream.accepted := by
      intro room limited
      rw [endless] at limited
      cases limited
    rw [show spliced.2 = _ from (alike fits).2.1]
    exact all

/-- Members of an object, one of them an array, and between them two calls that are misplaced. -/
def someMembers : List Call :=
  [.one .closeArray, .member "a" (.scalar (.int 1)), .one (.name "b"), .one .openArray, .flush,
    .one (.raw "[]"), .one (.name "c"), .one (.scalar .null), .one .closeArray]

theorem fragment_someMembers : Fragment .object someMembers := by
  refine ⟨?_, ⟨2, by decide⟩, by decide⟩
  unfold FindsOpen
  decide

/-- The members are spliced into an object behind three others, on a stream that has room for one of
the brackets behind them.
-/
theorem run_splicing_someMembers
    : Fragment .object someMembers
      ∧ ∃ text,
        ((start .unlimited .insideObject).run someMembers).1.stream.accepted = text.toUTF8
        ∧ let writer := start (.limited 21) (.amid .object 3 [⟨.array, 1⟩])
          let spliced := writer.run (splicing .object text)
          let placed := writer.run someMembers
          spliced.2 = [.ok ()]
          ∧ placed.2 = ((start .unlimited .insideObject).run someMembers).2
          ∧ (spliced.1.run [.one .closeObject, .one .closeArray]).2
            = (placed.1.run [.one .closeObject, .one .closeArray]).2
          ∧ (spliced.1.run [.one .closeObject, .one .closeArray]).1.stream
            = (placed.1.run [.one .closeObject, .one .closeArray]).1.stream := by
  obtain ⟨text, produced, everywhere⟩ := run_splicing fragment_someMembers
  obtain ⟨streams, answers, _⟩ := everywhere (.limited 21) 3 [⟨.array, 1⟩]
  have bytes : ((start .unlimited .insideObject).run someMembers).1.stream.accepted
      = "\"a\":1,\"b\":[[],null]".toUTF8 := by
    decide +kernel
  obtain rfl : "\"a\":1,\"b\":[[],null]" = text :=
    String.toByteArray_inj.mp (bytes.symm.trans produced)
  have taken : ((start (.limited 21) (.amid .object 3 [⟨.array, 1⟩])).run
      (splicing .object "\"a\":1,\"b\":[[],null]")).2 = [.ok ()] := by
    decide +kernel
  have all := answers fun answer member => List.mem_singleton.mp (taken ▸ member)
  exact ⟨fragment_someMembers, _, bytes, taken, all.1 rfl, all.2 _, streams _⟩

/-- A stream that breaks inside of the fragment, behind the brace of its only member, leaves the
writers in different scopes: in place the object is closed that the stream did not take, and then
the one around it, so there is nothing left to close.
-/
theorem run_splicing_broken
    : let calls : List Call := [.member "a" .openObject, .one .closeObject]
      let writer := start (.limited 4) (.amid .object 0 [])
      Fragment .object calls
      ∧ ((start .unlimited .insideObject).run calls).1.stream.accepted = "\"a\":\x7b\x7d".toUTF8
      ∧ ((writer.run (splicing .object "\"a\":\x7b\x7d")).1.run [.one .closeObject]).2
        = [.error .broken]
      ∧ ((writer.run calls).1.run [.one .closeObject]).2
        = [.error (.misuse .closedUnopened)] := by
  refine ⟨⟨by unfold FindsOpen; decide, ⟨1, by decide⟩, by decide⟩, ?_, ?_, ?_⟩
  · decide +kernel
  · decide +kernel
  · decide +kernel

end Writer

end SeriesWire.Json
