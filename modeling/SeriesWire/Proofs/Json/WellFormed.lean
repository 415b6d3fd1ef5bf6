import SeriesWire.Json.Token
import SeriesWire.Proofs.Json.Numerals

/-! The text of a JSON tree is one value of the grammar.
Nothing about the tree is assumed: strings hold any characters, doubles are finite or not, arrays
and objects are empty or nested.
-/

namespace SeriesWire.Json

open Grammar

-----------------------------------------------------------------------------------------
-- Strings and other scalars
-----------------------------------------------------------------------------------------

/-- Four digits name every control character, by evaluation for each of them. -/
theorem hex_of_control {code : Nat} (control : code < 32)
    : ((Nat.toDigits 16 code).leftpad 4 '0').length = 4
      ∧ ((Nat.toDigits 16 code).leftpad 4 '0').all isHex = true := by
  revert code
  decide

/-- Every character is written so that it may stand between quotes. -/
theorem characters_escapeChar (c : Char) {rest : List Char} (more : Characters rest)
    : Characters (escapeChar c ++ rest) := by
  unfold escapeChar
  -- Seven characters have a letter of their own behind the backslash.
  iterate 7
    split
    · exact .escape (by simp) more
  split
  · rename_i control
    obtain ⟨four, hex⟩ := hex_of_control control
    exact .unit four hex more
  · rename_i quote backslash _ _ _ _ _ printed
    exact .plain (Nat.le_of_not_lt printed) quote backslash more

/-- A string is quoted character by character, by induction on them. -/
theorem characters_flatMap (characters : List Char)
    : Characters (characters.flatMap escapeChar) := by
  induction characters with
  | nil => exact .nil
  | cons c rest ih => exact characters_escapeChar c ih

theorem quoted_quoted (s : String) : Quoted (quoted s).toList := by
  rw [quoted, String.toList_ofList]
  exact .of (characters_flatMap s.toList)

/-- Doubles that are no numbers are strings, so every scalar is a value. -/
theorem value_scalar (scalar : Scalar) : Value scalar.text.toList := by
  cases scalar with
  | null => exact .null
  | bool value =>
      cases value with
      | true => exact .true
      | false => exact .false
  | int value => exact .number (number_toString_int value)
  | double value =>
      rw [Scalar.text, doubleText]
      split
      · exact .number (number_doubleLayout value)
      · split
        · exact .string (quoted_quoted _)
        · split
          · exact .string (quoted_quoted _)
          · exact .string (quoted_quoted _)
  | string value => exact .string (quoted_quoted value)

theorem Grammar.Number.ne_nil {text : List Char} (number : Number text) : text ≠ [] := by
  cases number with
  | of _ whole _ _ => cases whole <;> simp

theorem Grammar.Value.ne_nil {text : List Char} (value : Value text) : text ≠ [] := by
  cases value with
  | number number => exact number.ne_nil
  | string quoted => cases quoted with | of _ => simp
  | _ => simp

theorem Scalar.text_ne_empty (scalar : Scalar) : scalar.text ≠ "" := by
  intro empty
  exact (value_scalar scalar).ne_nil (by rw [empty, String.toList_empty])

-----------------------------------------------------------------------------------------
-- Arrays and objects
-----------------------------------------------------------------------------------------

theorem blank_nil : Blank [] := by
  intro c member
  exact (List.not_mem_nil member).elim

theorem element_of_value {text : List Char} (value : Value text) : Element text := by
  have element := Element.of blank_nil value blank_nil
  simpa using element

theorem member_of_value {text : List Char} (name : String) (value : Value text)
    : Member ((quoted name).toList ++ ':' :: text) := by
  have member := Member.of blank_nil (quoted_quoted name) blank_nil (element_of_value value)
  simpa using member

/-- Values joined by commas are the elements of an array, by induction on the later ones. -/
theorem elements_intercalate (first : String) (rest : List String)
    (values : ∀ text ∈ first :: rest, Value text.toList)
    : Elements (String.intercalate "," (first :: rest)).toList := by
  have element := element_of_value (values first (by simp))
  induction rest generalizing first with
  | nil => simpa using Elements.last element
  | cons second rest ih =>
      have more := ih second (fun text member => values text (by simp [member]))
        (element_of_value (values second (by simp)))
      have elements := Elements.cons element more
      simpa [String.intercalate_cons_cons] using elements

/-- Members joined by commas are those of an object, by induction on the later ones. -/
theorem members_intercalate (first : String) (rest : List String)
    (each : ∀ text ∈ first :: rest, Member text.toList)
    : Members (String.intercalate "," (first :: rest)).toList := by
  have member := each first (by simp)
  induction rest generalizing first with
  | nil => simpa using Members.last member
  | cons second rest ih =>
      have more := ih second (fun text later => each text (by simp [later]))
        (each second (by simp))
      have members := Members.cons member more
      simpa [String.intercalate_cons_cons] using members

theorem value_array {texts : List String} (values : ∀ text ∈ texts, Value text.toList)
    : Value ("[" ++ String.intercalate "," texts ++ "]").toList := by
  rw [String.toList_append, String.toList_append]
  cases texts with
  | nil => exact .emptyArray blank_nil
  | cons first rest => exact .array (elements_intercalate first rest values)

theorem value_object {texts : List String} (each : ∀ text ∈ texts, Member text.toList)
    : Value ("\x7b" ++ String.intercalate "," texts ++ "\x7d").toList := by
  rw [String.toList_append, String.toList_append]
  cases texts with
  | nil => exact .emptyObject blank_nil
  | cons first rest => exact .object (members_intercalate first rest each)

mutual

/-- The text of a tree is a value, by recursion on the tree. -/
theorem value_text (value : Json) : Value value.text.toList := by
  cases value with
  | scalar value => exact value_scalar value
  | array items => exact value_array (value_itemTexts items)
  | object members => exact value_object (member_memberTexts members)

theorem value_itemTexts (items : List Json) : ∀ text ∈ itemTexts items, Value text.toList := by
  cases items with
  | nil => simp [itemTexts]
  | cons item rest =>
      intro text member
      rcases List.mem_cons.mp member with rfl | later
      · exact value_text item
      · exact value_itemTexts rest text later

theorem member_memberTexts (members : List (String × Json))
    : ∀ text ∈ memberTexts members, Member text.toList := by
  cases members with
  | nil => simp [memberTexts]
  | cons head rest =>
      obtain ⟨name, value⟩ := head
      intro text member
      rcases List.mem_cons.mp member with rfl | later
      · rw [String.toList_append, String.toList_append, List.append_assoc]
        exact member_of_value name (value_text value)
      · exact member_memberTexts rest text later

end

end SeriesWire.Json
