import SeriesWire.Json.Token

/-! Where a JSON text stands, and what writing the next token takes.
A token is planned from the cursor alone: either it is misplaced and nothing happens, or it is a few
pieces of text, each with the cursor that is left when the stream refuses that piece.
-/

namespace SeriesWire.Json

inductive ScopeKind where
  | object
  | array
  deriving DecidableEq, Repr

/-- An open object or array and the number of its members so far. -/
structure Scope where
  kind : ScopeKind
  count : Nat
  deriving DecidableEq, Repr

/-- The open scopes, the innermost first, and whether a name waits for its value. -/
structure Cursor where
  scopes : List Scope
  pending : Bool
  deriving DecidableEq, Repr

namespace Cursor

/-- Outside of every scope. -/
def root : Cursor :=
  ⟨[], false⟩

/-- Inside an object that somebody else opens and closes. -/
def insideObject : Cursor :=
  ⟨[⟨.object, 0⟩], false⟩

/-- Inside an array that somebody else opens and closes. -/
def insideArray : Cursor :=
  ⟨[⟨.array, 0⟩], false⟩

end Cursor

/-- Why a token is misplaced. -/
inductive Misuse where
  | nameInsteadOfValue
  | nameOutsideObject
  | membersInsteadOfValue
  | membersOutsideObject
  | valueWithoutName
  | closedBeforeValue
  | closedUnopened
  deriving DecidableEq, Repr

def Misuse.message : Misuse → String
  | .nameInsteadOfValue => "field name written while a value was expected"
  | .nameOutsideObject => "field name written outside of an object"
  | .membersInsteadOfValue => "fields written while a value was expected"
  | .membersOutsideObject => "fields written outside of an object"
  | .valueWithoutName => "value written in an object without a field name"
  | .closedBeforeValue => "scope closed while a field value was expected"
  | .closedUnopened => "closed a scope that is not open"

/-- Text to write, and where the cursor stands if it is refused. -/
structure Piece where
  text : String
  refused : Cursor
  deriving DecidableEq, Repr

/-- The pieces of a token in order, and where the cursor stands after the last. -/
structure Plan where
  pieces : List Piece
  landing : Cursor
  deriving DecidableEq, Repr

namespace Plan

/-- Everything that the plan writes. -/
def text (plan : Plan) : String :=
  String.join (plan.pieces.map Piece.text)

/-- Continues a plan by one more piece that leaves the cursor where it landed. -/
def andWrite (plan : Plan) (text : String) : Plan :=
  { plan with pieces := plan.pieces ++ [⟨text, plan.landing⟩] }

/-- Moves the cursor without writing. -/
def landAt (plan : Plan) (landing : Cursor) : Plan :=
  { plan with landing }

end Plan

namespace Cursor

/-- One more member of the innermost scope: a comma unless it is the first. The member counts only
once its comma is written. -/
def advance (c : Cursor) (scope : Scope) (outer : List Scope) : Plan :=
  { pieces := if scope.count = 0 then [] else [⟨",", c⟩]
    landing := { c with scopes := ⟨scope.kind, scope.count + 1⟩ :: outer } }

/-- What comes before a value. In an object the value answers the pending name. -/
def beforeValue (c : Cursor) : Except Misuse Plan :=
  match c.scopes with
  | [] => .ok ⟨[], c⟩
  | scope :: outer =>
    match scope.kind with
    | .array => .ok (c.advance scope outer)
    | .object =>
      if c.pending then .ok ⟨[], { c with pending := false }⟩ else .error .valueWithoutName

/-- What comes before a member of an object. -/
def beforeMember (c : Cursor) (early outside : Misuse) : Except Misuse Plan :=
  if c.pending then .error early
  else
    match c.scopes with
    | scope :: outer =>
      match scope.kind with
      | .object => .ok (c.advance scope outer)
      | .array => .error outside
    | [] => .error outside

/-- The cursor with one more scope open. -/
def push (c : Cursor) (kind : ScopeKind) : Cursor :=
  { c with scopes := ⟨kind, 0⟩ :: c.scopes }

/-- The scope is left before its bracket is written. -/
def close (c : Cursor) (kind : ScopeKind) (bracket : String) : Except Misuse Plan :=
  if c.pending then .error .closedBeforeValue
  else
    match c.scopes with
    | scope :: outer =>
      if scope.kind = kind then .ok (Plan.andWrite ⟨[], { c with scopes := outer }⟩ bracket)
      else .error .closedUnopened
    | [] => .error .closedUnopened

/-- What writing a token takes at this cursor. No members at all are never misplaced. -/
def plan (c : Cursor) : Token → Except Misuse Plan
  | .openObject => c.beforeValue.map fun p => (p.andWrite "\x7b").landAt (p.landing.push .object)
  | .openArray => c.beforeValue.map fun p => (p.andWrite "[").landAt (p.landing.push .array)
  | .closeObject => c.close .object "\x7d"
  | .closeArray => c.close .array "]"
  | .scalar value => c.beforeValue.map fun p => p.andWrite value.text
  | .raw text => c.beforeValue.map fun p => p.andWrite text
  | .name name =>
    (c.beforeMember .nameInsteadOfValue .nameOutsideObject).map fun p =>
      ((p.andWrite (quoted name)).andWrite ":").landAt { p.landing with pending := true }
  | .rawMembers text =>
    if text.isEmpty then .ok ⟨[], c⟩
    else
      (c.beforeMember .membersInsteadOfValue .membersOutsideObject).map fun p => p.andWrite text

end Cursor

end SeriesWire.Json
