import SeriesWire.Json.Call
import SeriesWire.Proofs.Json.Spelling
import SeriesWire.Proofs.Json.WellFormed
import SeriesWire.Proofs.Success

/-! What stands on the stream while scopes are open can always be completed to one JSON value.
The cursor says how: by a value for the name that waits for one, and by the brackets that close the
open scopes. Misplaced tokens change nothing, so it does not matter how often a writer is misused.
-/

namespace SeriesWire.Json

open Grammar

-----------------------------------------------------------------------------------------
-- Lists in the grammar
-----------------------------------------------------------------------------------------

/-- Elements behind elements are elements, by recursion on the first ones. -/
theorem Grammar.Elements.append {front rest : List Char} (h : Elements front)
    (more : Elements rest)
    : Elements (front ++ ',' :: rest) := by
  cases h with
  | last element => exact .cons element more
  | cons element between =>
      rw [List.append_assoc]
      exact .cons element (between.append more)
  termination_by front.length
  decreasing_by
    simp only [List.length_append, List.length_cons]
    omega

/-- Members behind members are members, by recursion on the first ones. -/
theorem Grammar.Members.append {front rest : List Char} (h : Members front)
    (more : Members rest)
    : Members (front ++ ',' :: rest) := by
  cases h with
  | last member => exact .cons member more
  | cons member between =>
      rw [List.append_assoc]
      exact .cons member (between.append more)
  termination_by front.length
  decreasing_by
    simp only [List.length_append, List.length_cons]
    omega

-----------------------------------------------------------------------------------------
-- Open scopes
-----------------------------------------------------------------------------------------

/-- The bracket that opens a scope. -/
def ScopeKind.left : ScopeKind → Char
  | .object => '\x7b'
  | .array => '['

/-- The bracket that closes a scope. -/
def ScopeKind.right : ScopeKind → Char
  | .object => '\x7d'
  | .array => ']'

/-- The token that opens a scope. -/
def ScopeKind.opening : ScopeKind → Token
  | .object => .openObject
  | .array => .openArray

/-- Inside of such a scope, which somebody else opens and closes. -/
def Cursor.inside : ScopeKind → Cursor
  | .object => .insideObject
  | .array => .insideArray

/-- Behind so many members of a scope. -/
def Cursor.amid (kind : ScopeKind) (count : Nat) (outer : List Scope) : Cursor :=
  ⟨⟨kind, count⟩ :: outer, false⟩

/-- What completes a text at the cursor: null for a name that waits for its value, and the brackets
of the open scopes from the innermost out.
-/
def Cursor.missing (c : Cursor) : String :=
  (if c.pending then "null" else "") ++ String.ofList (c.scopes.map fun scope => scope.kind.right)

/-- The text between the opening bracket of a scope and the place behind its last member. -/
def Scope.Filled : Scope → List Char → Prop
  | ⟨_, 0⟩, body => body = []
  | ⟨.array, _ + 1⟩, body => Elements body
  | ⟨.object, _ + 1⟩, body => Members body

/-- The text stands behind the last member of the innermost scope. What is in front of the scope
takes any value in its place.
-/
def Holds : List Scope → List Char → Prop
  | [], text => Value text
  | scope :: outer, text =>
    ∃ front body,
      (∀ value, Value value → Holds outer (front ++ value))
      ∧ scope.Filled body
      ∧ text = front ++ scope.kind.left :: body

/-- The text stands where the cursor is: behind a member, or behind a name that takes any value. -/
inductive Cursor.Stands : Cursor → List Char → Prop
  | behind {scopes : List Scope} {text : List Char} (holds : Holds scopes text)
    : Stands ⟨scopes, false⟩ text
  | named {count : Nat} {outer : List Scope} {text : List Char}
    (awaits : ∀ value, Element value → Holds (⟨.object, count⟩ :: outer) (text ++ value))
    : Stands ⟨⟨.object, count⟩ :: outer, true⟩ text

/-- A scope with its brackets is a value. -/
theorem Scope.Filled.value {scope : Scope} {body : List Char} (filled : scope.Filled body)
    : Value (scope.kind.left :: (body ++ [scope.kind.right])) := by
  match scope, filled with
  | ⟨.array, 0⟩, empty =>
      rw [Filled] at empty
      exact empty ▸ .emptyArray blank_nil
  | ⟨.object, 0⟩, empty =>
      rw [Filled] at empty
      exact empty ▸ .emptyObject blank_nil
  | ⟨.array, _ + 1⟩, elements => exact .array elements
  | ⟨.object, _ + 1⟩, members => exact .object members

/-- A bracket closes the innermost scope, which is then a value in its place. -/
theorem Holds.close {scope : Scope} {outer : List Scope} {text : List Char}
    (holds : Holds (scope :: outer) text)
    : Holds outer (text ++ [scope.kind.right]) := by
  obtain ⟨front, body, awaits, filled, rfl⟩ := holds
  simpa using awaits _ filled.value

/-- The brackets of the open scopes complete a text, by induction on the scopes. -/
theorem Holds.value {scopes : List Scope} {text : List Char} (holds : Holds scopes text)
    : Value (text ++ scopes.map fun scope => scope.kind.right) := by
  induction scopes generalizing text with
  | nil => simpa [Holds] using holds
  | cons scope outer ih => simpa using ih holds.close

/-- What the cursor misses completes a text that stands there. -/
theorem Cursor.Stands.value {c : Cursor} {text : List Char} (stands : c.Stands text)
    : Value (text ++ c.missing.toList) := by
  cases stands with
  | behind holds => simpa [missing] using holds.value
  | named awaits =>
      have null : Element ("null").toList := element_of_value .null
      simpa [missing] using (awaits _ null).value

-----------------------------------------------------------------------------------------
-- Tokens in place
-----------------------------------------------------------------------------------------

/-- Where any value may stand, a scope may be opened. -/
theorem Holds.push {scopes : List Scope} {text : List Char} (kind : ScopeKind)
    (awaits : ∀ value, Value value → Holds scopes (text ++ value))
    : Holds (⟨kind, 0⟩ :: scopes) (text ++ [kind.left]) :=
  ⟨text, [], awaits, by cases kind <;> rfl, rfl⟩

/-- A further member, behind a comma unless it is the first. -/
theorem Holds.extend {scope : Scope} {outer : List Scope} {text more : List Char}
    (holds : Holds (scope :: outer) text)
    (filled : Scope.Filled ⟨scope.kind, 1⟩ more)
    : Holds (⟨scope.kind, scope.count + 1⟩ :: outer)
        (text ++ (if scope.count = 0 then [] else [',']) ++ more) := by
  obtain ⟨front, body, awaits, between, rfl⟩ := holds
  refine ⟨front, body ++ (if scope.count = 0 then [] else [',']) ++ more, awaits, ?_, by simp⟩
  match scope, between, filled with
  | ⟨.array, 0⟩, empty, elements =>
      rw [Scope.Filled] at empty
      simpa [empty] using elements
  | ⟨.object, 0⟩, empty, members =>
      rw [Scope.Filled] at empty
      simpa [empty] using members
  | ⟨.array, _ + 1⟩, before, elements =>
      simpa [Scope.Filled] using Elements.append before elements
  | ⟨.object, _ + 1⟩, before, members =>
      simpa [Scope.Filled] using Members.append before members

/-- Whatever comes before a value in an open scope, any value may follow it. -/
theorem Cursor.Stands.beforeValue {c : Cursor} {text : List Char} (stands : c.Stands text)
    (inside : c.scopes ≠ []) {p : Plan} (planned : c.beforeValue = .ok p)
    : p.landing.pending = false
      ∧ ∀ value, Element value → Holds p.landing.scopes (text ++ p.text.toList ++ value) := by
  cases stands with
  | @behind scopes _ holds =>
      cases scopes with
      | nil => exact absurd rfl inside
      | cons scope outer =>
          obtain ⟨kind, count⟩ := scope
          cases kind with
          | object => simp [Cursor.beforeValue] at planned
          | array =>
              obtain rfl : Cursor.advance _ _ _ = p := Except.ok.inj planned
              refine ⟨rfl, fun value element => ?_⟩
              have filled : Scope.Filled ⟨.array, 1⟩ value := .last element
              have further := holds.extend filled
              rw [text_advance, landing_advance]
              split at further <;> simp_all
  | named awaits =>
      simp only [Cursor.beforeValue, if_true, Except.ok.injEq] at planned
      subst planned
      exact ⟨rfl, by simpa [Plan.text] using awaits⟩

/-- Whatever comes before a member, any members may follow it. -/
theorem Cursor.Stands.beforeMember {c : Cursor} {text : List Char} (stands : c.Stands text)
    {early outside : Misuse} {p : Plan} (planned : c.beforeMember early outside = .ok p)
    : ∃ count outer,
        p.landing = ⟨⟨.object, count⟩ :: outer, false⟩
        ∧ ∀ members,
            Members members
            → Holds (⟨.object, count⟩ :: outer) (text ++ p.text.toList ++ members) := by
  cases stands with
  | named awaits => simp [Cursor.beforeMember] at planned
  | @behind scopes _ holds =>
      cases scopes with
      | nil => simp [Cursor.beforeMember] at planned
      | cons scope outer =>
          obtain ⟨kind, count⟩ := scope
          cases kind with
          | array => simp [Cursor.beforeMember] at planned
          | object =>
              obtain rfl : Cursor.advance _ _ _ = p := Except.ok.inj planned
              refine ⟨count + 1, outer, rfl, fun members listed => ?_⟩
              have filled : Scope.Filled ⟨.object, 1⟩ members := listed
              have further := holds.extend filled
              rw [text_advance]
              split at further <;> simp_all

/-- A value that is written in place leaves the cursor behind it. -/
theorem Cursor.Stands.written {c : Cursor} {text : List Char} (stands : c.Stands text)
    (inside : c.scopes ≠ []) {p : Plan} (planned : c.beforeValue = .ok p) {value : String}
    (element : Element value.toList)
    : (p.andWrite value).landing.Stands (text ++ (p.andWrite value).text.toList) := by
  obtain ⟨settled, awaits⟩ := stands.beforeValue inside planned
  obtain ⟨pieces, scopes, pending⟩ := p
  subst settled
  rw [Plan.text_andWrite, String.toList_append, ← List.append_assoc]
  exact .behind (awaits _ element)

/-- A scope that is opened in place has no members yet. -/
theorem Cursor.Stands.opened {c : Cursor} {text : List Char} (stands : c.Stands text)
    (inside : c.scopes ≠ []) {p : Plan} (planned : c.beforeValue = .ok p) (kind : ScopeKind)
    {bracket : String} (left : bracket.toList = [kind.left])
    : (p.landing.push kind).Stands (text ++ (p.andWrite bracket).text.toList) := by
  obtain ⟨settled, awaits⟩ := stands.beforeValue inside planned
  obtain ⟨pieces, scopes, pending⟩ := p
  subst settled
  rw [Plan.text_andWrite, String.toList_append, ← List.append_assoc, left]
  exact .behind (.push kind fun value valued => awaits value (element_of_value valued))

/-- A scope is closed by its own bracket only. -/
theorem Cursor.Stands.closed {c : Cursor} {text : List Char} (stands : c.Stands text)
    (kind : ScopeKind) {bracket : String} (right : bracket.toList = [kind.right]) {p : Plan}
    (planned : c.close kind bracket = .ok p)
    : p.landing.Stands (text ++ p.text.toList) := by
  cases stands with
  | named awaits => simp [Cursor.close] at planned
  | @behind scopes _ holds =>
      cases scopes with
      | nil => simp [Cursor.close] at planned
      | cons scope outer =>
          by_cases same : scope.kind = kind
          · simp only [Cursor.close, same, if_true, Bool.false_eq_true, if_false,
              Except.ok.injEq] at planned
            subst planned same
            rw [Plan.text_andWrite, Plan.text_still, String.empty_append, right]
            exact .behind holds.close
          · simp [Cursor.close, same] at planned

-----------------------------------------------------------------------------------------
-- Tokens of any kind
-----------------------------------------------------------------------------------------

/-- Text that was written elsewhere is a value, or no members at all, or members. -/
def Token.WellFormed : Token → Prop
  | .raw text => Element text.toList
  | .rawMembers text => text = "" ∨ Members text.toList
  | _ => True

/-- A token that is in place leaves the cursor where its text ends, by the kinds of tokens. -/
theorem Cursor.Stands.plan {c : Cursor} {text : List Char} (stands : c.Stands text)
    (inside : c.scopes ≠ []) {token : Token} (wellFormed : token.WellFormed) {p : Plan}
    (planned : c.plan token = .ok p)
    : p.landing.Stands (text ++ p.text.toList) := by
  cases token with
  | openObject =>
      obtain ⟨before, reached, rfl⟩ := map_eq_ok_iff.mp planned
      exact stands.opened inside reached .object rfl
  | openArray =>
      obtain ⟨before, reached, rfl⟩ := map_eq_ok_iff.mp planned
      exact stands.opened inside reached .array rfl
  | closeObject => exact stands.closed .object rfl planned
  | closeArray => exact stands.closed .array rfl planned
  | scalar value =>
      obtain ⟨before, reached, rfl⟩ := map_eq_ok_iff.mp planned
      exact stands.written inside reached (element_of_value (value_scalar value))
  | raw value =>
      obtain ⟨before, reached, rfl⟩ := map_eq_ok_iff.mp planned
      exact stands.written inside reached wellFormed
  | name name =>
      obtain ⟨before, reached, rfl⟩ := map_eq_ok_iff.mp planned
      obtain ⟨count, outer, landed, awaits⟩ := stands.beforeMember reached
      simp only [Plan.text_landAt, Plan.text_andWrite, landed]
      refine .named fun value element => ?_
      have member := Member.of blank_nil (quoted_quoted name) blank_nil element
      simpa using awaits _ (.last member)
  | rawMembers members =>
      by_cases none : members.isEmpty
      · simp only [Cursor.plan, none, if_true, Except.ok.injEq] at planned
        subst planned
        simpa [Plan.text] using stands
      · simp only [Cursor.plan, none, Bool.false_eq_true, if_false] at planned
        obtain ⟨before, reached, rfl⟩ := map_eq_ok_iff.mp planned
        obtain ⟨count, outer, landed, awaits⟩ := stands.beforeMember reached
        have listed := wellFormed.resolve_left (by simpa using none)
        rw [Plan.landing_andWrite, landed, Plan.text_andWrite, String.toList_append,
          ← List.append_assoc]
        exact .behind (awaits _ listed)

-----------------------------------------------------------------------------------------
-- Writers
-----------------------------------------------------------------------------------------

/-- Everything in the call that was written elsewhere is well-formed. -/
def Call.WellFormed (call : Call) : Prop :=
  ∀ token ∈ call.tokens, token.WellFormed

/-- What the writer added to a stream stands behind the text in front, where its cursor is. -/
def Writer.Continues (writer : Writer) (stream : Stream) (front : List Char) : Prop :=
  ∃ text, writer.stream = stream.extend text ∧ writer.cursor.Stands (front ++ text.toList)

namespace Writer

variable {writer : Writer} {stream : Stream} {front : List Char}

theorem Continues.endless (continues : writer.Continues stream front)
    (unlimited : stream.room = none)
    : writer.stream.room = none := by
  obtain ⟨text, extended, _⟩ := continues
  exact extended ▸ unlimited

/-- A token in a scope: one in place is written in full, a misplaced one changes nothing. -/
theorem Continues.write (continues : writer.Continues stream front)
    (unlimited : stream.room = none) (inside : writer.cursor.scopes ≠ []) {token : Token}
    (wellFormed : token.WellFormed)
    : (writer.write token).1.Continues stream front := by
  have endless := continues.endless unlimited
  obtain ⟨text, extended, stands⟩ := continues
  cases planned : writer.cursor.plan token with
  | error misuse =>
      rw [Writer.write, planned]
      exact ⟨text, extended, stands⟩
  | ok p =>
      rw [write_unlimited planned endless]
      refine ⟨text ++ p.text, by rw [extended, Stream.extend_append], ?_⟩
      rw [String.toList_append, ← List.append_assoc]
      exact stands.plan inside wellFormed planned

/-- A name that was written stands in an object. -/
theorem scopes_of_name {name : String} {next : Writer}
    (unlimited : writer.stream.room = none) (written : writer.write (.name name) = (next, .ok ()))
    : next.cursor.scopes ≠ [] := by
  cases planned : writer.cursor.plan (.name name) with
  | error misuse => simp [Writer.write, planned] at written
  | ok p =>
      rw [write_unlimited planned unlimited] at written
      obtain ⟨before, reached, rfl⟩ := map_eq_ok_iff.mp planned
      obtain rfl := (Prod.mk.inj written).1
      unfold Cursor.beforeMember at reached
      split at reached
      · cases reached
      · split at reached
        · split at reached
          · obtain rfl := Except.ok.inj reached
            simp [Plan.landAt, Plan.andWrite, Cursor.advance]
          · cases reached
        · cases reached

/-- A call in a scope. A member that fails half way leaves its name, which still waits. -/
theorem Continues.call (continues : writer.Continues stream front)
    (unlimited : stream.room = none) (inside : writer.cursor.scopes ≠ []) {call : Call}
    (wellFormed : call.WellFormed)
    : (writer.call call).1.Continues stream front := by
  cases call with
  | flush => exact continues
  | one token => exact continues.write unlimited inside (wellFormed token (by simp [Call.tokens]))
  | member name value =>
      have plain : (Token.name name).WellFormed := trivial
      have named := continues.write unlimited inside plain
      rw [Writer.call, writeAll]
      cases first : writer.write (.name name) with
      | mk next answer =>
          rw [first] at named
          cases answer with
          | error fault => exact named
          | ok _ =>
              have opened := scopes_of_name (continues.endless unlimited) first
              simp only [writeAll_single]
              exact named.write unlimited opened (wellFormed value (by simp [Call.tokens]))

theorem run_cons (writer : Writer) (call : Call) (rest : List Call)
    : (writer.run (call :: rest)).1 = ((writer.call call).1.run rest).1 :=
  rfl

/-- Each of the calls finds some scope open. -/
def FindsOpen (writer : Writer) (calls : List Call) : Prop :=
  ∀ count < calls.length, (writer.run (calls.take count)).1.cursor.scopes ≠ []

/-- Calls as long as some scope is open, by induction on them. -/
theorem Continues.run {calls : List Call} (continues : writer.Continues stream front)
    (unlimited : stream.room = none) (wellFormed : ∀ call ∈ calls, call.WellFormed)
    (inside : writer.FindsOpen calls)
    : (writer.run calls).1.Continues stream front := by
  induction calls generalizing writer with
  | nil => exact continues
  | cons call rest ih =>
      have here := inside 0 (Nat.succ_pos _)
      have further := continues.call unlimited here (wellFormed call (by simp))
      refine ih further (fun other member => wellFormed other (by simp [member])) ?_
      intro count below
      exact inside (count + 1) (Nat.succ_lt_succ below)

theorem Continues.completable (continues : writer.Continues stream front)
    : ∃ text,
        writer.stream.accepted = stream.accepted ++ text.toUTF8
        ∧ Value (front ++ (text ++ writer.cursor.missing).toList) := by
  obtain ⟨text, extended, stands⟩ := continues
  refine ⟨text, by rw [extended, Stream.extend], ?_⟩
  rw [String.toList_append, ← List.append_assoc]
  exact stands.value

/-- An opening bracket leaves the writer inside a scope without members. -/
theorem stands_inside (kind : ScopeKind) : (Cursor.inside kind).Stands [kind.left] := by
  have pushed : Holds [⟨kind, 0⟩] ([] ++ [kind.left]) := .push kind fun value valued => valued
  cases kind with
  | object => exact .behind pushed
  | array => exact .behind pushed

/-- The first token of a text opens its scope. -/
theorem run_opening (unlimited : stream.room = none) (kind : ScopeKind)
    : ((start stream .root).run [.one kind.opening]).1
      = ⟨stream.extend (String.singleton kind.left), .inside kind⟩ := by
  have planned : (start stream .root).cursor.plan kind.opening
      = .ok ⟨[⟨String.singleton kind.left, .root⟩], .inside kind⟩ := by
    cases kind <;> rfl
  rw [run_cons, Writer.call, write_unlimited planned unlimited]
  simp [run, Plan.text, start]

/-- However often it is misused, a writer's text is never beyond repair: with null for a name that
waits and the brackets of the open scopes, it is one value. The first part is about a text that
starts with a bracket, up to where that bracket is closed. The second is about a writer inside of a
scope that somebody else opens and closes, whose brackets are then part of the value.
-/
theorem run_completable (unlimited : stream.room = none) (kind : ScopeKind) {calls : List Call}
    (wellFormed : ∀ call ∈ calls, call.WellFormed)
    : (((start stream .root).run [.one kind.opening]).1.FindsOpen calls
        → let last := ((start stream .root).run (.one kind.opening :: calls)).1
          ∃ text,
            last.stream.accepted = stream.accepted ++ text.toUTF8
            ∧ Value (text ++ last.cursor.missing).toList)
      ∧ ((start stream (.inside kind)).FindsOpen calls
        → let last := ((start stream (.inside kind)).run calls).1
          ∃ text,
            last.stream.accepted = stream.accepted ++ text.toUTF8
            ∧ Value (kind.left :: (text ++ last.cursor.missing).toList)) := by
  constructor
  · intro inside last
    have opened : ((start stream .root).run [.one kind.opening]).1.Continues stream [] := by
      rw [run_opening unlimited kind]
      exact ⟨_, rfl, by simpa using stands_inside kind⟩
    exact (opened.run unlimited wellFormed inside).completable
  · intro inside last
    have fragment : (start stream (.inside kind)).Continues stream [kind.left] :=
      ⟨"", by simp [start], by simpa [start] using stands_inside kind⟩
    exact (fragment.run unlimited wellFormed inside).completable

/-- Calls inside of an object, half of them misplaced. The last leaves a name without its value. -/
def misused : List Call :=
  [.member "a" .openArray, .one (.raw "1"), .one .closeObject, .one (.name "b"), .flush,
    .one .closeArray, .one (.rawMembers "\"c\":2"), .one .openArray, .member "d" .closeObject]

theorem run_completable_misused
    : (∀ call ∈ misused, call.WellFormed)
      ∧ ((start .unlimited .root).run [.one .openObject]).1.FindsOpen misused
      ∧ (start .unlimited .insideObject).FindsOpen misused
      ∧ (let last := ((start .unlimited .root).run (.one .openObject :: misused)).1
        ∃ text,
          last.stream.accepted = Stream.unlimited.accepted ++ text.toUTF8
          ∧ Value (text ++ last.cursor.missing).toList)
      ∧ (let last := ((start .unlimited .insideObject).run misused).1
        last.cursor.missing = "null\x7d"
        ∧ ∃ text,
          last.stream.accepted = Stream.unlimited.accepted ++ text.toUTF8
          ∧ Value ('\x7b' :: (text ++ last.cursor.missing).toList)) := by
  have one : Element ['1'] := element_of_value (value_scalar (.int 1))
  have two : Members ['"', 'c', '"', ':', '2'] :=
    .last (member_of_value "c" (value_scalar (.int 2)))
  have wellFormed : ∀ call ∈ misused, call.WellFormed := by
    simp [misused, Call.WellFormed, Call.tokens, Token.WellFormed, one, two]
  have opened : ((start .unlimited .root).run [.one .openObject]).1.FindsOpen misused := by
    unfold FindsOpen
    decide
  have fragment : (start .unlimited .insideObject).FindsOpen misused := by
    unfold FindsOpen
    decide
  obtain ⟨whole, part⟩ := @run_completable .unlimited rfl .object misused wellFormed
  exact ⟨wellFormed, opened, fragment, whole opened, by decide, part fragment⟩

end Writer

end SeriesWire.Json
