import SeriesWire.Number.Padded
import SeriesWire.Proofs.Json.Numerals

/-! Reading ISO 8601 durations.
The components of a text stand in a fixed order, each a signed number in front of its letter, and a
component that is missing counts nothing.
-/

namespace SeriesWire.Iso8601

-----------------------------------------------------------------------------------------
-- The reader
-----------------------------------------------------------------------------------------

/-- What stands in front of the first mark of a text, and what stands behind it. -/
def cut? (mark : Char) (text : List Char) : Option (List Char × List Char) :=
  if mark ∈ text then some (text.takeWhile (· != mark), (text.dropWhile (· != mark)).tail)
  else none

/-- The number that decimal digits spell. -/
def natural? (text : List Char) : Option Nat :=
  if text ≠ [] ∧ text.all Char.isDigit then some (Nat.ofDigitChars 10 text 0) else none

/-- The billionths of a decimal with up to nine places. Filled up to nine, they are the digits
behind those of the whole part.
-/
def billionths? (text : List Char) : Option Nat :=
  let (whole, places) := (cut? '.' text).getD (text, [])
  if places.length ≤ 9 then natural? (whole ++ places.rightpad 9 '0') else none

/-- A minus sign in front applies to all that is read behind it. -/
def signed? (read : List Char → Option Nat) (text : List Char) : Option Int :=
  if text.head? = some '-' then (read text.tail).map fun n => -(n : Int)
  else (read text).map fun n => (n : Int)

/-- The number in front of the first of its letters, or zero if the letter is missing, and the text
that is left.
-/
def component? (read : List Char → Option Nat) (letter : Char) (text : List Char)
    : Option (Int × List Char) :=
  match cut? letter text with
  | none => some (0, text)
  | some (number, behind) => (signed? read number).map fun count => (count, behind)

/-- Three components that make up the whole text. -/
def components? (first second third : Char) (read : List Char → Option Nat) (text : List Char)
    : Option (Int × Int × Int) := do
  let (a, text) ← component? natural? first text
  let (b, text) ← component? natural? second text
  let (c, text) ← component? read third text
  if text = [] then some (a, b, c) else none

/-- Hours, minutes and billionths of a second. -/
def time? (text : String) : Option (Int × Int × Int) := do
  let (front, time) ← cut? 'T' text.toList
  if front = ['P'] then components? 'H' 'M' 'S' billionths? time else none

/-- Years, months and days. -/
def date? (text : String) : Option (Int × Int × Int) :=
  if text.toList.head? = some 'P' then components? 'Y' 'M' 'D' natural? text.toList.tail else none

-----------------------------------------------------------------------------------------
-- Digits
-----------------------------------------------------------------------------------------

variable {mark letter : Char} {text before behind number : List Char}
variable {read : List Char → Option Nat}

theorem cut?_append (fresh : mark ∉ before)
    : cut? mark (before ++ mark :: behind) = some (before, behind) := by
  have passed : ∀ c ∈ before, (c != mark) = true := by
    intro c member
    exact bne_iff_ne.mpr fun same => fresh (same ▸ member)
  rw [cut?, if_pos (by simp), List.takeWhile_append_of_pos passed,
    List.dropWhile_append_of_pos passed]
  simp

theorem cut?_eq_none (fresh : mark ∉ text)
    : cut? mark text = none := by
  rw [cut?, if_neg fresh]

theorem isDigit_toDigits {n : Nat} {c : Char} (member : c ∈ Nat.toDigits 10 n)
    : c.isDigit :=
  (Json.digits_toDigits n).2 c member

theorem point_not_mem_toDigits (n : Nat)
    : '.' ∉ Nat.toDigits 10 n := by
  intro member
  exact absurd (isDigit_toDigits member) (by decide)

theorem natural?_of_digits (digits : Json.Grammar.Digits text)
    : natural? text = some (Nat.ofDigitChars 10 text 0) := by
  rw [natural?, if_pos ⟨digits.1, List.all_eq_true.mpr digits.2⟩]

theorem natural?_toDigits (n : Nat)
    : natural? (Nat.toDigits 10 n) = some n := by
  rw [natural?_of_digits (Json.digits_toDigits n), Nat.ofDigitChars_ten_toDigits]

/-- Nine digits behind a number are its billionths. -/
theorem natural?_append_nine (n : Nat) {places : List Char} (digits : ∀ c ∈ places, c.isDigit)
    (nine : places.length = 9)
    : natural? (Nat.toDigits 10 n ++ places)
      = some (n * 1000000000 + Nat.ofDigitChars 10 places 0) := by
  rw [natural?_of_digits (Json.Digits.append (Json.digits_toDigits n) digits),
    Nat.ofDigitChars_append, Nat.ofDigitChars_ten_toDigits, Nat.ofDigitChars_eq_ofDigitChars_zero,
    nine, Nat.mul_comm]

theorem toList_padded (width n : Nat)
    : (padded width n).toList = (Nat.toDigits 10 n).leftpad width '0' := by
  rw [padded, if_neg (by omega), String.toList_ofList, Int.natAbs_natCast]

theorem isDigit_padded {width n : Nat} {c : Char} (member : c ∈ (padded width n).toList)
    : c.isDigit := by
  rw [toList_padded] at member
  rcases List.mem_append.mp member with zero | own
  · exact Json.isDigit_of_mem_zeros zero
  · exact isDigit_toDigits own

theorem ofDigitChars_padded (width n : Nat)
    : Nat.ofDigitChars 10 (padded width n).toList 0 = n := by
  rw [toList_padded, List.leftpad, Nat.ofDigitChars_append, Nat.ofDigitChars_replicate_zero,
    Nat.mul_zero, Nat.ofDigitChars_ten_toDigits]

theorem length_padded {width n : Nat} (fits : (Nat.toDigits 10 n).length ≤ width)
    : (padded width n).toList.length = width := by
  rw [toList_padded, List.length_leftpad]
  omega

/-- Zeros cut off at the end are filled in again. -/
theorem rightpad_trimmed (text : List Char)
    : ((text.reverse.dropWhile (· == '0')).reverse).rightpad text.length '0' = text := by
  have zeros : text.reverse.takeWhile (· == '0')
      = List.replicate (text.reverse.takeWhile (· == '0')).length '0' := by
    refine List.eq_replicate_iff.mpr ⟨rfl, ?_⟩
    intro c member
    exact eq_of_beq (List.all_eq_true.mp List.all_takeWhile c member)
  have whole : (text.reverse.dropWhile (· == '0')).reverse
      ++ (text.reverse.takeWhile (· == '0')).reverse = text := by
    rw [← List.reverse_append, List.takeWhile_append_dropWhile, List.reverse_reverse]
  have lengths := congrArg List.length whole
  rw [List.length_append, @List.length_reverse _ (text.reverse.takeWhile _)] at lengths
  rw [List.rightpad, ← lengths, Nat.add_sub_cancel_left, ← List.reverse_replicate, ← zeros, whole]

theorem billionths?_whole (n : Nat)
    : billionths? (Nat.toDigits 10 n) = some (n * 1000000000) := by
  have zeros := @natural?_append_nine n (List.replicate 9 '0')
    (fun _ => Json.isDigit_of_mem_zeros) List.length_replicate
  rw [Nat.ofDigitChars_replicate_zero, Nat.mul_zero, Nat.add_zero] at zeros
  rw [billionths?, cut?_eq_none (point_not_mem_toDigits n)]
  exact zeros

/-- Nine places are read back although their trailing zeros are cut off. -/
theorem billionths?_places (whole : Nat) {part : Nat} (below : part < 1000000000)
    : billionths? (Nat.toDigits 10 whole ++ '.' ::
        ((padded 9 part).toList.reverse.dropWhile (· == '0')).reverse)
      = some (whole * 1000000000 + part) := by
  have nine : (padded 9 part).toList.length = 9 :=
    length_padded ((Nat.length_toDigits_le_iff (by decide) (by decide)).mpr below)
  have again := rightpad_trimmed (padded 9 part).toList
  have shorter := ((padded 9 part).toList.reverse.dropWhile_sublist (· == '0')).length_le
  rw [nine] at again
  rw [List.length_reverse, nine] at shorter
  rw [billionths?, cut?_append (point_not_mem_toDigits whole)]
  simp only [Option.getD_some, List.length_reverse]
  rw [if_pos shorter, again, natural?_append_nine whole (fun _ => isDigit_padded) nine,
    ofDigitChars_padded]

-----------------------------------------------------------------------------------------
-- Signed numbers
-----------------------------------------------------------------------------------------

/-- What signed decimals are written with. -/
def Numeral (c : Char) : Prop :=
  c.isDigit ∨ c = '-' ∨ c = '.'

instance (c : Char) : Decidable (Numeral c) :=
  inferInstanceAs (Decidable (_ ∨ _))

theorem toList_toString (count : Int)
    : (toString count).toList
      = if 0 ≤ count then Nat.toDigits 10 count.natAbs
        else '-' :: Nat.toDigits 10 count.natAbs := by
  rw [Int.toString_eq_repr, Int.repr_eq_if]
  split
  · rw [Nat.toList_repr]
    congr 1
    omega
  · have same : (-count).toNat = count.natAbs := by omega
    rw [String.toList_append, Nat.toList_repr, same]
    rfl

theorem numeral_of_mem_toString {count : Int} {c : Char} (member : c ∈ (toString count).toList)
    : Numeral c := by
  rw [toList_toString] at member
  split at member
  · exact .inl (isDigit_toDigits member)
  · rcases List.mem_cons.mp member with rfl | digit
    · exact .inr (.inl rfl)
    · exact .inl (isDigit_toDigits digit)

theorem numeral_of_mem_places {part : Nat} {c : Char}
    (member : c ∈ '.' :: ((padded 9 part).toList.reverse.dropWhile (· == '0')).reverse)
    : Numeral c := by
  rcases List.mem_cons.mp member with rfl | trimmed
  · exact .inr (.inr rfl)
  · have place := List.dropWhile_subset _ (List.mem_reverse.mp trimmed)
    exact .inl (isDigit_padded (List.mem_reverse.mp place))

/-- The sign of the whole part applies to the places behind it. -/
theorem signed?_toString {count : Int} {rest : List Char} {value : Nat}
    (reads : read (Nat.toDigits 10 count.natAbs ++ rest) = some value)
    : signed? read ((toString count).toList ++ rest)
      = some (if 0 ≤ count then (value : Int) else -value) := by
  rw [toList_toString]
  split
  · have unsigned : (Nat.toDigits 10 count.natAbs ++ rest).head? ≠ some '-' := by
      obtain ⟨first, others, digits⟩ :=
        List.exists_cons_of_ne_nil (Nat.toDigits_ne_nil (n := count.natAbs) (b := 10))
      have digit : first.isDigit := isDigit_toDigits (n := count.natAbs) (by simp [digits])
      intro minus
      rw [digits, List.cons_append, List.head?_cons, Option.some.injEq] at minus
      subst minus
      exact absurd digit (by decide)
    rw [signed?, if_neg unsigned, reads]
    rfl
  · rw [signed?, List.cons_append, List.head?_cons, if_pos rfl, List.tail_cons, reads]
    rfl

theorem signed?_natural (count : Int)
    : signed? natural? (toString count).toList = some count := by
  have reads := @signed?_toString natural? count [] count.natAbs
    (by rw [List.append_nil, natural?_toDigits])
  rw [List.append_nil] at reads
  rw [reads, Option.some.injEq]
  split <;> omega

-----------------------------------------------------------------------------------------
-- Components
-----------------------------------------------------------------------------------------

/-- A text shows a value by a number and its letter, or it is empty and shows zero. -/
def Shows (read : List Char → Option Nat) (letter : Char) (text : List Char) (value : Int)
    : Prop :=
  text = [] ∧ value = 0
  ∨ ∃ number,
      text = number ++ [letter]
      ∧ (∀ c ∈ number, Numeral c)
      ∧ signed? read number = some value

variable {value : Int}

theorem Shows.not_mem (shows : Shows read letter text value) (unused : ¬ Numeral mark)
    (other : mark ≠ letter)
    : mark ∉ text := by
  rcases shows with ⟨rfl, _⟩ | ⟨number, rfl, numerals, _⟩
  · exact List.not_mem_nil
  · intro member
    rcases List.mem_append.mp member with own | last
    · exact unused (numerals mark own)
    · exact other (List.mem_singleton.mp last)

/-- What a text shows is read from it, and the text behind it is left. -/
theorem Shows.component? (shows : Shows read letter text value) (unused : ¬ Numeral letter)
    (fresh : letter ∉ behind)
    : component? read letter (text ++ behind) = some (value, behind) := by
  rcases shows with ⟨rfl, rfl⟩ | ⟨number, rfl, numerals, reads⟩
  · rw [List.nil_append, Iso8601.component?, cut?_eq_none fresh]
  · have own : letter ∉ number := fun member => unused (numerals letter member)
    rw [List.append_assoc, List.singleton_append, Iso8601.component?, cut?_append own]
    simp only [reads, Option.map_some]

/-- Components with letters of their own are read one behind the other. -/
theorem components?_of_shows {first second third : Char} {a b c : Int}
    {front middle last : List Char}
    (letters : ¬ Numeral first ∧ ¬ Numeral second ∧ ¬ Numeral third)
    (distinct : first ≠ second ∧ first ≠ third ∧ second ≠ third)
    (leads : Shows natural? first front a) (follows : Shows natural? second middle b)
    (ends : Shows read third last c)
    : components? first second third read (front ++ (middle ++ last)) = some (a, b, c) := by
  obtain ⟨unused, unused', unused''⟩ := letters
  obtain ⟨apart, apart', apart''⟩ := distinct
  have outer : first ∉ middle ++ last := by
    intro member
    rcases List.mem_append.mp member with early | late
    · exact follows.not_mem unused apart early
    · exact ends.not_mem unused apart' late
  have inner : second ∉ last := ends.not_mem unused' apart''
  have final := ends.component? unused'' (List.not_mem_nil : third ∉ ([] : List Char))
  rw [List.append_nil] at final
  simp only [components?, leads.component? unused outer, follows.component? unused' inner, final,
    Option.bind_eq_bind, Option.bind_some]
  rfl

end SeriesWire.Iso8601
