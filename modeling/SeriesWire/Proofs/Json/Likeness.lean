import Mathlib.Data.List.Forall2
import SeriesWire.Proofs.Json.OpenText

/-! Writers that give the same answers and write the same, although their cursors differ.
A writer does not look at the scopes outside of the innermost one, and of the members of a scope it
only knows whether there are any. This holds wherever the stream breaks.
-/

namespace SeriesWire.Json

-----------------------------------------------------------------------------------------
-- Cursors that a writer cannot tell apart
-----------------------------------------------------------------------------------------

/-- Scopes of one kind that both have members, or both have none. -/
def Scope.Like (scope other : Scope) : Prop :=
  scope.kind = other.kind ∧ (scope.count = 0 ↔ other.count = 0)

theorem Scope.Like.refl (scope : Scope) : scope.Like scope :=
  ⟨rfl, Iff.rfl⟩

/-- Inside of the scopes `outer`, the first cursor is like the second. -/
structure Cursor.Like (outer : List Scope) (c d : Cursor) : Prop where
  scopes : List.Forall₂ Scope.Like (c.scopes ++ outer) d.scopes
  pending : c.pending = d.pending

def Piece.Like (outer : List Scope) (piece other : Piece) : Prop :=
  piece.text = other.text ∧ piece.refused.Like outer other.refused

/-- The plans write the same pieces and leave like cursors. -/
structure Plan.Like (outer : List Scope) (p q : Plan) : Prop where
  pieces : List.Forall₂ (Piece.Like outer) p.pieces q.pieces
  landing : p.landing.Like outer q.landing

/-- Like plans, or the same misuse. -/
inductive Agree (outer : List Scope) : Except Misuse Plan → Except Misuse Plan → Prop
  | misplaced (cause : Misuse) : Agree outer (.error cause) (.error cause)
  | planned {p q : Plan} (like : p.Like outer q) : Agree outer (.ok p) (.ok q)

variable {outer : List Scope}

theorem Agree.map {first second : Except Misuse Plan} (agree : Agree outer first second)
    {f g : Plan → Plan} (like : ∀ p q, Plan.Like outer p q → Plan.Like outer (f p) (g q))
    : Agree outer (first.map f) (second.map g) := by
  cases agree with
  | misplaced cause => exact .misplaced cause
  | planned planned => exact .planned (like _ _ planned)

namespace Plan.Like

variable {p q : Plan}

theorem text (like : Plan.Like outer p q) : p.text = q.text := by
  have same : List.Forall₂ Eq (p.pieces.map Piece.text) (q.pieces.map Piece.text) := by
    rw [List.forall₂_map_left_iff, List.forall₂_map_right_iff]
    exact like.pieces.imp fun _ _ alike => alike.1
  rw [List.forall₂_eq_eq_eq] at same
  rw [Plan.text, Plan.text, same]

theorem andWrite (like : Plan.Like outer p q) (text : String)
    : Plan.Like outer (p.andWrite text) (q.andWrite text) :=
  ⟨List.rel_append like.pieces (.cons ⟨rfl, like.landing⟩ .nil), like.landing⟩

theorem landAt (like : Plan.Like outer p q) {c d : Cursor} (landing : c.Like outer d)
    : Plan.Like outer (p.landAt c) (q.landAt d) :=
  ⟨like.pieces, landing⟩

end Plan.Like

namespace Cursor.Like

variable {c d : Cursor}

/-- Only the comma in front of a member depends on how many there are. -/
theorem advance (like : c.Like outer d) {scope other : Scope} {rest others : List Scope}
    (head : scope.Like other) (tail : List.Forall₂ Scope.Like (rest ++ outer) others)
    : (c.advance scope rest).Like outer (d.advance other others) := by
  refine ⟨?_, .cons ⟨head.1, by simp⟩ tail, like.pending⟩
  by_cases first : scope.count = 0
  · simp [Cursor.advance, first, head.2.mp first]
  · simp [Cursor.advance, first, mt head.2.mpr first, Piece.Like, like]

/-- Inside of some scope, the innermost scopes of like cursors are alike. -/
theorem heads {scope : Scope} {rest : List Scope} {pending : Bool}
    (like : Cursor.Like outer ⟨scope :: rest, pending⟩ d)
    : ∃ other others,
        d = ⟨other :: others, pending⟩
        ∧ scope.Like other
        ∧ List.Forall₂ Scope.Like (rest ++ outer) others := by
  obtain ⟨other, others, head, tail, same⟩ := List.forall₂_cons_left_iff.mp like.scopes
  obtain ⟨scopes, waiting⟩ := d
  obtain rfl : pending = waiting := like.pending
  obtain rfl : scopes = other :: others := same
  exact ⟨other, others, rfl, head, tail⟩

theorem beforeValue (like : c.Like outer d) (inside : c.scopes ≠ [])
    : Agree outer c.beforeValue d.beforeValue := by
  obtain ⟨_ | ⟨⟨kind, count⟩, rest⟩, pending⟩ := c
  · exact absurd rfl inside
  · obtain ⟨⟨_, number⟩, others, rfl, ⟨rfl, members⟩, tail⟩ := like.heads
    cases kind with
    | array => exact .planned (like.advance ⟨rfl, members⟩ tail)
    | object =>
        cases pending with
        | false => exact .misplaced _
        | true => exact .planned ⟨.nil, like.scopes, rfl⟩

theorem beforeMember (like : c.Like outer d) (inside : c.scopes ≠ []) (early outside : Misuse)
    : Agree outer (c.beforeMember early outside) (d.beforeMember early outside) := by
  obtain ⟨_ | ⟨⟨kind, count⟩, rest⟩, pending⟩ := c
  · exact absurd rfl inside
  · obtain ⟨⟨_, number⟩, others, rfl, ⟨rfl, members⟩, tail⟩ := like.heads
    cases pending with
    | true => exact .misplaced _
    | false =>
        cases kind with
        | array => exact .misplaced _
        | object => exact .planned (like.advance ⟨rfl, members⟩ tail)

theorem close (like : c.Like outer d) (inside : c.scopes ≠ []) (kind : ScopeKind)
    (bracket : String)
    : Agree outer (c.close kind bracket) (d.close kind bracket) := by
  obtain ⟨_ | ⟨⟨innermost, count⟩, rest⟩, pending⟩ := c
  · exact absurd rfl inside
  · obtain ⟨⟨_, number⟩, others, rfl, ⟨rfl, members⟩, tail⟩ := like.heads
    cases pending with
    | true => exact .misplaced _
    | false =>
        by_cases same : innermost = kind
        · have still : Plan.Like outer ⟨[], ⟨rest, false⟩⟩ ⟨[], ⟨others, false⟩⟩ :=
            ⟨.nil, tail, rfl⟩
          simp only [Cursor.close, Bool.false_eq_true, if_false, same, if_true]
          exact .planned (still.andWrite bracket)
        · simp only [Cursor.close, Bool.false_eq_true, if_false, same]
          exact .misplaced _

theorem push (like : c.Like outer d) (kind : ScopeKind)
    : (c.push kind).Like outer (d.push kind) :=
  ⟨.cons (.refl _) like.scopes, like.pending⟩

/-- Inside of some scope, tokens are planned alike at like cursors, by the kinds of tokens. -/
theorem plan (like : c.Like outer d) (inside : c.scopes ≠ []) (token : Token)
    : Agree outer (c.plan token) (d.plan token) := by
  cases token with
  | openObject | openArray =>
      exact (like.beforeValue inside).map fun p q planned =>
        (planned.andWrite _).landAt (planned.landing.push _)
  | closeObject => exact like.close inside .object _
  | closeArray => exact like.close inside .array _
  | scalar | raw =>
      exact (like.beforeValue inside).map fun p q planned => planned.andWrite _
  | name name =>
      exact (like.beforeMember inside _ _).map fun p q planned =>
        ((planned.andWrite _).andWrite _).landAt ⟨planned.landing.scopes, rfl⟩
  | rawMembers text =>
      simp only [Cursor.plan]
      split
      · exact .planned ⟨.nil, like⟩
      · exact (like.beforeMember inside _ _).map fun p q planned => planned.andWrite _

theorem refl (c : Cursor) : c.Like [] c :=
  ⟨by rw [List.append_nil]; exact List.forall₂_same.mpr fun scope _ => .refl scope, rfl⟩

/-- Nothing is outside of like cursors, so outside of every scope they are the same. -/
theorem plan_outermost (like : c.Like [] d) (token : Token)
    : Agree [] (c.plan token) (d.plan token) := by
  by_cases inside : c.scopes = []
  · obtain ⟨scopes, pending⟩ := c
    obtain ⟨others, waiting⟩ := d
    obtain rfl : scopes = [] := inside
    obtain rfl : pending = waiting := like.pending
    obtain rfl : others = [] := List.forall₂_nil_left_iff.mp like.scopes
    cases (Cursor.mk [] pending).plan token with
    | error cause => exact .misplaced cause
    | ok p => exact .planned ⟨List.forall₂_same.mpr fun _ _ => ⟨rfl, refl _⟩, refl _⟩
  · exact like.plan inside token

end Cursor.Like

-----------------------------------------------------------------------------------------
-- Writers that cannot be told apart
-----------------------------------------------------------------------------------------

namespace Writer

/-- Writers on the same stream with like cursors. -/
structure Like (writer other : Writer) : Prop where
  stream : writer.stream = other.stream
  cursor : writer.cursor.Like [] other.cursor

/-- Like writers that gave the same answer. -/
def Matches {α : Type} (first second : Writer × α) : Prop :=
  first.1.Like second.1 ∧ first.2 = second.2

namespace Like

variable {writer other : Writer}

/-- Like pieces are accepted and refused together, by induction on them. -/
theorem carryOut (like : writer.Like other) {landing final : Cursor} {pieces others : List Piece}
    (same : List.Forall₂ (Piece.Like []) pieces others) (landed : landing.Like [] final)
    : Matches (writer.carryOut landing pieces) (other.carryOut final others) := by
  induction same generalizing writer other with
  | nil => exact ⟨⟨like.stream, landed⟩, rfl⟩
  | cons head tail ih =>
      rw [Writer.carryOut, Writer.carryOut, ← like.stream, ← head.1]
      rcases writer.stream.offer _ with ⟨stream, _ | _⟩
      · exact ⟨⟨rfl, head.2⟩, rfl⟩
      · exact ih ⟨rfl, like.cursor⟩

theorem write (like : writer.Like other) (token : Token)
    : Matches (writer.write token) (other.write token) := by
  have agree := like.cursor.plan_outermost token
  rw [Writer.write, Writer.write]
  generalize writer.cursor.plan token = first, other.cursor.plan token = second at agree
  cases agree with
  | misplaced cause => exact ⟨like, rfl⟩
  | planned planned => exact like.carryOut planned.pieces planned.landing

theorem writeAll (like : writer.Like other) (tokens : List Token)
    : Matches (writer.writeAll tokens) (other.writeAll tokens) := by
  induction tokens generalizing writer other with
  | nil => exact ⟨like, rfl⟩
  | cons token rest ih =>
      have written := like.write token
      rw [Writer.writeAll, Writer.writeAll]
      generalize writer.write token = first, other.write token = second at written
      obtain ⟨next, answer⟩ := first
      obtain ⟨following, _⟩ := second
      obtain ⟨alike, rfl⟩ := written
      cases answer with
      | error fault => exact ⟨alike, rfl⟩
      | ok _ => exact ih alike

theorem call (like : writer.Like other) (call : Call)
    : Matches (writer.call call) (other.call call) := by
  cases call with
  | flush => exact ⟨like, by rw [Writer.call, Writer.call, flush, flush, like.stream]⟩
  | one token => exact like.write token
  | member name value => exact like.writeAll [.name name, value]

/-- Like writers answer all calls alike, on whatever stream, by induction on the calls. -/
theorem run (like : writer.Like other) (calls : List Call)
    : Matches (writer.run calls) (other.run calls) := by
  induction calls generalizing writer other with
  | nil => exact ⟨like, rfl⟩
  | cons call rest ih =>
      obtain ⟨next, answer⟩ := like.call call
      obtain ⟨last, answers⟩ := ih next
      exact ⟨last, congrArg₂ List.cons answer answers⟩

end Like

end Writer

end SeriesWire.Json
