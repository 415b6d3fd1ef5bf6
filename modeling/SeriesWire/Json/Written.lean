import SeriesWire.Json.Draft

/-! The two readings of a JSON tree agree: its tokens, written one by one wherever a value may
stand, append exactly its text and leave the cursor behind one value.
-/

namespace SeriesWire.Json

/-- A further piece adds its text at the end, by joining the texts of all pieces. -/
theorem Plan.text_andWrite (p : Plan) (added : String)
    : (p.andWrite added).text = p.text ++ added := by
  simp [Plan.andWrite, Plan.text, String.join_append]

/-- Moving the cursor writes nothing. -/
theorem Plan.text_landAt (p : Plan) (landing : Cursor)
    : (p.landAt landing).text = p.text :=
  rfl

/-- One more member writes its comma unless it is the first. -/
theorem Cursor.text_advance (c : Cursor) (scope : Scope) (outer : List Scope)
    : (c.advance scope outer).text = if scope.count = 0 then "" else "," := by
  unfold Cursor.advance
  split <;> simp [Plan.text]

/-- The texts of further members of a scope that has `count` members so far. -/
def separated : (count : Nat) → List String → String
  | _, [] => ""
  | count, text :: rest =>
    (if count = 0 then "" else ",") ++ text ++ separated (count + 1) rest

/-- Behind a first member every other one brings its comma, as when they are joined. -/
theorem append_separated (count : Nat) (text : String) (rest : List String)
    : text ++ separated (count + 1) rest = String.intercalate "," (text :: rest) := by
  induction rest generalizing count text with
  | nil => simp [separated]
  | cons next rest ih =>
      simp only [separated, Nat.add_eq_zero_iff, Nat.one_ne_zero, and_false, if_false,
        String.intercalate_cons_cons, ← ih (count + 1), String.append_assoc]

/-- In a new scope the members are joined by commas. -/
theorem separated_zero (texts : List String)
    : separated 0 texts = String.intercalate "," texts := by
  cases texts with
  | nil => rfl
  | cons text rest =>
      simp only [separated, if_true, String.empty_append, append_separated]

namespace Draft

/-- Writing two lists of tokens is writing the second after the first. -/
theorem writeAll_append (draft : Draft) (first second : List Token)
    : draft.writeAll (first ++ second)
      = (draft.writeAll first).bind fun next => next.writeAll second := by
  induction first generalizing draft with
  | nil => rfl
  | cons token rest ih =>
      simp only [List.cons_append, writeAll]
      cases draft.write token with
      | ok next => exact ih next
      | error misuse => rfl

mutual

/-- The tokens of a value append its text wherever a value may stand, by recursion on the value. -/
theorem writeAll_tokens (value : Json) (text : String) (c : Cursor) (p : Plan)
    (h : c.beforeValue = .ok p) (hp : p.landing.pending = false)
    : (Draft.mk text c).writeAll value.tokens
      = .ok ⟨text ++ p.text ++ value.text, p.landing⟩ := by
  cases value with
  | scalar value =>
      simp [Json.tokens, writeAll, write, Cursor.plan, h, Except.map, Json.text, Plan.andWrite,
        Plan.text, String.join_append, String.append_assoc]
  | array items =>
      rw [Json.tokens, writeAll]
      simp only [write, Cursor.plan, h, Except.map, Plan.text_landAt, Plan.text_andWrite,
        writeAll_append]
      have inner := writeAll_itemTokens items (text ++ (p.text ++ "[")) p.landing.scopes 0
      simp only [Plan.landAt, Cursor.push, hp]
      rw [inner]
      obtain ⟨pieces, scopes, pending⟩ := p
      simp only at hp
      subst hp
      simp [Except.bind, writeAll, write, Cursor.plan, Cursor.close, Except.map, Json.text,
        separated_zero, Plan.andWrite, Plan.text, String.append_assoc]
  | object members =>
      rw [Json.tokens, writeAll]
      simp only [write, Cursor.plan, h, Except.map, Plan.text_landAt, Plan.text_andWrite,
        writeAll_append]
      have inner := writeAll_memberTokens members (text ++ (p.text ++ "\x7b")) p.landing.scopes 0
      simp only [Plan.landAt, Cursor.push, hp]
      rw [inner]
      obtain ⟨pieces, scopes, pending⟩ := p
      simp only at hp
      subst hp
      simp [Except.bind, writeAll, write, Cursor.plan, Cursor.close, Except.map, Json.text,
        separated_zero, Plan.andWrite, Plan.text, String.append_assoc]

/-- The tokens of items append their texts to an open array and count them. -/
theorem writeAll_itemTokens (items : List Json) (text : String) (outer : List Scope) (count : Nat)
    : (Draft.mk text ⟨⟨.array, count⟩ :: outer, false⟩).writeAll (Json.itemTokens items)
      = .ok ⟨text ++ separated count (Json.itemTexts items),
          ⟨⟨.array, count + items.length⟩ :: outer, false⟩⟩ := by
  match items with
  | [] => simp [Json.itemTokens, writeAll, Json.itemTexts, separated]
  | item :: rest =>
      rw [Json.itemTokens, writeAll_append, writeAll_tokens item text _ _ rfl rfl]
      simp only [Except.bind, Cursor.text_advance]
      rw [Cursor.advance, writeAll_itemTokens rest _ outer (count + 1)]
      simp only [Json.itemTexts, separated, List.length_cons, String.append_assoc]
      rw [Nat.add_right_comm, Nat.add_assoc]

/-- The tokens of members append their texts to an open object and count them. -/
theorem writeAll_memberTokens (members : List (String × Json)) (text : String)
    (outer : List Scope) (count : Nat)
    : (Draft.mk text ⟨⟨.object, count⟩ :: outer, false⟩).writeAll (Json.memberTokens members)
      = .ok ⟨text ++ separated count (Json.memberTexts members),
          ⟨⟨.object, count + members.length⟩ :: outer, false⟩⟩ := by
  match members with
  | [] => simp [Json.memberTokens, writeAll, Json.memberTexts, separated]
  | (name, value) :: rest =>
      rw [Json.memberTokens, writeAll, write]
      simp only [Cursor.plan, Cursor.beforeMember, Except.map, Bool.false_eq_true, if_false,
        Plan.text_landAt, Plan.text_andWrite, Cursor.text_advance]
      rw [writeAll_append]
      simp only [Plan.landAt, Cursor.advance]
      rw [writeAll_tokens value _ ⟨⟨.object, count + 1⟩ :: outer, true⟩ _ rfl rfl]
      simp only [Except.bind]
      rw [writeAll_memberTokens rest _ outer (count + 1)]
      simp only [Json.memberTexts, separated, List.length_cons, Plan.text, List.map_nil,
        String.join_nil, String.append_empty, String.append_assoc]
      rw [Nat.add_right_comm, Nat.add_assoc]

end

end Draft

end SeriesWire.Json
