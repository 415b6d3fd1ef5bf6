import Mathlib.Data.String.Basic
import Mathlib.Tactic.SplitIfs

/-! The order of strings is the order of their bytes.
Strings are compared by code points, and the encoding of a greater code point is greater at the
first byte in which the encodings differ.
-/

namespace SeriesWire

/-- The bytes of a string are the encodings of its characters. -/
theorem data_toUTF8 (text : String)
    : text.toUTF8.data.toList = text.toList.flatMap String.utf8EncodeChar := by
  conv => lhs; rw [← String.ofList_toList (s := text)]
  rw [String.toUTF8_eq_toByteArray, String.toByteArray_ofList, List.utf8Encode,
    List.toList_data_toByteArray]

/-- A greater character starts with a greater encoding, whatever follows. Witness: a longer encoding
has a greater first byte, and encodings of one length are the digits of the code points.
-/
theorem utf8EncodeChar_lt {first second : Char} (h : first < second) (more others : List UInt8)
    : String.utf8EncodeChar first ++ more < String.utf8EncodeChar second ++ others := by
  have less : first.val.toNat < second.val.toNat := h
  have bound : second.val.toNat < 0x110000 := by
    rcases second.valid with low | high
    · exact Nat.lt_trans low (by decide)
    · exact high.2
  unfold String.utf8EncodeChar
  generalize first.val.toNat = a at *
  generalize second.val.toNat = b at *
  simp only
  split_ifs <;>
    simp only [List.cons_append, List.nil_append, List.cons_lt_cons_iff, UInt8.lt_iff_toNat_lt,
      UInt8.toNat_ofNat', ← UInt8.toNat_inj] <;>
    simp (disch := omega) only [Nat.mod_eq_of_lt] <;>
    omega

/-- Encoding keeps a string below another one, by induction on what they have in common. -/
theorem flatMap_utf8EncodeChar_lt {first second : List Char} (h : first < second)
    : first.flatMap String.utf8EncodeChar < second.flatMap String.utf8EncodeChar := by
  induction h with
  | @nil head rest =>
      have filled : String.utf8EncodeChar head ≠ [] := String.utf8EncodeChar_ne_nil
      obtain ⟨byte, bytes, he⟩ := List.exists_cons_of_ne_nil filled
      rw [List.flatMap_nil, List.flatMap_cons, he]
      exact List.nil_lt_cons ..
  | rel less =>
      rw [List.flatMap_cons, List.flatMap_cons]
      exact utf8EncodeChar_lt less _ _
  | cons _ ih =>
      rw [List.flatMap_cons, List.flatMap_cons]
      exact List.append_left_lt ih

/-- Strings are ordered as their bytes. -/
theorem compare_eq_lt_iff_bytes {first second : String}
    : compare first second = .lt ↔ first.toUTF8.data.toList < second.toUTF8.data.toList := by
  have order : compare first second = .lt ↔ first < second := compareOfLessAndEq_eq_lt
  rw [order, data_toUTF8, data_toUTF8]
  constructor
  · exact flatMap_utf8EncodeChar_lt
  · intro below
    by_contra not
    rcases (not_lt.mp not).lt_or_eq with above | same
    · exact List.lt_asymm below (flatMap_utf8EncodeChar_lt above)
    · exact List.lt_irrefl _ (same ▸ below)

end SeriesWire
