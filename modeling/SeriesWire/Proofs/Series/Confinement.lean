import SeriesWire.Proofs.Series.PackedWindow

/-! A decoder keeps to the words of its array, however these are cut.
It reads nothing outside of the bounds, so what else is stored around the words does not matter, and
it gives the same answer for ever once its records are spent.
-/

namespace SeriesWire

namespace Packed

/-- An error where the words of an array begin at another index. -/
def PackedError.moved (origin target : Nat) : PackedError → PackedError
  | .truncated index => .truncated (index - origin + target)
  | cause => cause

theorem length_records (words : List Int64)
    : (records words).length = words.length / 2 := by
  induction words using List.twoStepInduction with
  | nil => rfl
  | singleton word => simp [records]
  | cons_cons header payload rest ih _ =>
      rw [records, List.length_cons, List.length_cons, List.length_cons, ih]
      omega

namespace Decoder

/-- The decoder that is left behind so many calls, whatever they were answered. -/
def after (decoder : Decoder) : Nat → Decoder
  | 0 => decoder
  | calls + 1 => decoder.next.1.after calls

/-- A call for the next record that gets its words from elsewhere, where reading may be refused. -/
def nextReading (read : Nat → Option Int64) (decoder : Decoder)
    : Option (Decoder × Except PackedError (Option Record)) :=
  if decoder.stop ≤ decoder.index then some (decoder, .ok none)
  else if decoder.stop ≤ decoder.index + 1 then
    some (decoder, .error (.truncated decoder.index))
  else do
    let header ← read decoder.index
    let payload ← read (decoder.index + 1)
    return ({ decoder with index := decoder.index + 2 }, .ok (some (unpack header payload)))

/-- What a call is answered is what the decoder that is left by the calls before it answers. -/
theorem next_after (decoder : Decoder) (calls : Nat)
    : (decoder.after calls).next.2 = decoder.answer calls := by
  induction calls generalizing decoder with
  | zero => rfl
  | succ calls ih => exact ih decoder.next.1

end Decoder

end Packed

namespace PackedArray

open Packed

/-- The words of the array by their index. Reading is refused outside of the bounds. -/
def permitted (array : PackedArray) (index : Nat) : Option Int64 :=
  if array.offset ≤ index ∧ index < array.stop then array.words[index]? else none

variable {array : PackedArray} {decoder : Decoder}

/-- The decoder has not left the array behind its offset. -/
structure Holds (array : PackedArray) (decoder : Decoder) : Prop where
  words : decoder.words = array.words
  stop : decoder.stop = array.stop
  begun : array.offset ≤ decoder.index

/-- A call only moves on. -/
theorem Holds.next (holds : array.Holds decoder)
    : array.Holds decoder.next.1 := by
  have begun := holds.begun
  unfold Decoder.next
  split
  · exact holds
  · split
    · exact holds
    · exact ⟨holds.words, holds.stop, Nat.le_add_right_of_le begun⟩

/-- Any calls only move on, by induction on the calls. -/
theorem Holds.after (holds : array.Holds decoder) (calls : Nat)
    : array.Holds (decoder.after calls) := by
  induction calls generalizing decoder with
  | zero => exact holds
  | succ calls ih => exact ih holds.next

/-- Both words of a record lie within the bounds, so that no reading is refused. -/
theorem Holds.nextReading (valid : array.Valid) (holds : array.Holds decoder)
    : decoder.nextReading array.permitted = some decoder.next := by
  have bounded := valid.bounded
  have begun := holds.begun
  unfold Decoder.nextReading Decoder.next
  split
  · rfl
  · split
    · rfl
    · rename_i more second
      rw [holds.stop] at more second
      have read (index : Nat) (first : array.offset ≤ index) (last : index < array.stop)
          : array.permitted index = some (decoder.words[index]?.getD 0) := by
        have stored : index < array.words.size := Nat.lt_of_lt_of_le last bounded
        rw [permitted, if_pos ⟨first, last⟩, holds.words, Array.getElem?_eq_getElem stored]
        rfl
      rw [read decoder.index begun (by omega), read (decoder.index + 1) (by omega) (by omega)]
      rfl

/-- The bounds of an array are refused if they are out of order or lie behind the words. -/
theorem decoder_of_eq_error_iff
    : (∃ cause, Decoder.of array = .error cause)
      ↔ array.words.size < array.stop ∨ array.stop < array.offset := by
  unfold Decoder.of
  split
  · rename_i refused
    exact iff_of_true ⟨_, rfl⟩ refused
  · rename_i taken
    refine iff_of_false ?_ taken
    rintro ⟨cause, refused⟩
    cases refused

theorem Valid.length_slice (valid : array.Valid)
    : array.slice.length = array.stop - array.offset :=
  @Decoder.length_rest ⟨array.words, array.offset, array.stop⟩ valid.bounded

/-- The answer behind the last record of an array. -/
def ending (array : PackedArray) : Except PackedError (Option Record) :=
  if array.CutOff then .error (.truncated (array.stop - 1)) else .ok none

/-- The words of an array are answered with their records and then with its ending. -/
theorem Valid.next_after (valid : array.Valid) (calls : Nat)
    : ((Decoder.mk array.words array.offset array.stop).after calls).next.2
      = (records array.slice)[calls]?.elim array.ending fun record => .ok (some record) := by
  have answered := @Decoder.answer_eq ⟨array.words, array.offset, array.stop⟩ valid.bounded calls
  rw [ending_decoder] at answered
  exact (Decoder.next_after _ calls).trans answered

theorem Valid.collect (valid : array.Valid)
    : (Decoder.mk array.words array.offset array.stop).collect
      = array.ending.map fun _ => records array.slice := by
  have collected := @Decoder.collect_eq ⟨array.words, array.offset, array.stop⟩ valid.bounded
  rwa [ending_decoder] at collected

/-- Arrays of the same words end alike, up to the place where the words stand. -/
theorem Valid.ending_congr {other : PackedArray} (valid : array.Valid) (sound : other.Valid)
    (same : other.slice = array.slice)
    : other.ending = array.ending.mapError (PackedError.moved array.offset other.offset) := by
  have length := congrArg List.length same
  rw [sound.length_slice, valid.length_slice] at length
  unfold ending
  by_cases cut : array.CutOff
  · have alike : other.CutOff := (congrArg (· % 2) length).trans cut
    have moved : other.stop - 1 = array.stop - 1 - array.offset + other.offset := by
      have := sound.ordered
      rw [CutOff] at cut
      omega
    rw [if_pos alike, if_pos cut, moved]
    rfl
  · have alike : ¬other.CutOff := by
      intro odd
      exact cut ((congrArg (· % 2) length).symm.trans odd)
    rw [if_neg alike, if_neg cut]
    rfl

/-- A decoder is made for any words unless the bounds are refused, and however the words are cut, it
keeps to those within the bounds. No call reads another word. The calls return as many records as
there are pairs of words; every later call finds nothing, or finds the same word left over; and all
records are collected unless a word is left over. Whatever else is stored before and behind them,
the same words are answered and collected alike, up to the index of the word that is left over.
-/
theorem decoding_confined (array : PackedArray)
    : ((∃ cause, Decoder.of array = .error cause)
        ↔ array.words.size < array.stop ∨ array.stop < array.offset)
      ∧ (array.Valid
        → ∃ decoder,
          Decoder.of array = .ok decoder
          ∧ (∀ calls,
            (decoder.after calls).nextReading array.permitted = some (decoder.after calls).next)
          ∧ (records array.slice).length = (array.stop - array.offset) / 2
          ∧ (∀ calls record,
            (records array.slice)[calls]? = some record
            → (decoder.after calls).next.2 = .ok (some record))
          ∧ (∀ calls,
            (array.stop - array.offset) / 2 ≤ calls
            → (decoder.after calls).next.2
              = if (array.stop - array.offset) % 2 = 1 then .error (.truncated (array.stop - 1))
                else .ok none)
          ∧ decoder.collect
            = (if (array.stop - array.offset) % 2 = 1 then .error (.truncated (array.stop - 1))
              else .ok (records array.slice))
          ∧ ∀ other : PackedArray,
            other.Valid
            → other.slice = array.slice
            → ∃ twin,
              Decoder.of other = .ok twin
              ∧ (∀ calls,
                (twin.after calls).next.2
                = (decoder.after calls).next.2.mapError
                    (PackedError.moved array.offset other.offset))
              ∧ twin.collect
                = decoder.collect.mapError (PackedError.moved array.offset other.offset)) := by
  refine ⟨decoder_of_eq_error_iff, ?_⟩
  intro valid
  have length : (records array.slice).length = (array.stop - array.offset) / 2 := by
    rw [length_records, valid.length_slice]
  have holds : array.Holds ⟨array.words, array.offset, array.stop⟩ := ⟨rfl, rfl, Nat.le_refl _⟩
  refine ⟨_, valid.decoder_of, ?_, length, ?_, ?_, ?_, ?_⟩
  · intro calls
    exact (holds.after calls).nextReading valid
  · intro calls record listed
    rw [valid.next_after, listed]
    rfl
  · intro calls spent
    rw [valid.next_after, List.getElem?_eq_none (length.trans_le spent)]
    rfl
  · rw [valid.collect, ending]
    exact apply_ite (Except.map fun _ => records array.slice) _ _ _
  · intro other sound same
    have ended := valid.ending_congr sound same
    refine ⟨_, sound.decoder_of, ?_, ?_⟩
    · intro calls
      rw [sound.next_after, valid.next_after, same, ended]
      cases (records array.slice)[calls]? with
      | none => rfl
      | some record => rfl
    · rw [sound.collect, valid.collect, same, ended]
      cases array.ending with
      | ok answer => rfl
      | error cause => rfl

/-- A record and the header of another one, stored between other words. -/
def torn : PackedArray where
  words := #[7, 1000, 42, 1001, 99]
  offset := 1
  stop := 4

/-- The words between the others are decoded as they are on their own, and the lone header stays
where it is.
-/
theorem decoding_confined_torn
    : torn.Valid
      ∧ (ofWords [1000, 42, 1001]).Valid
      ∧ (ofWords [1000, 42, 1001]).slice = torn.slice
      ∧ ∃ decoder twin,
          Decoder.of torn = .ok decoder
          ∧ Decoder.of (ofWords [1000, 42, 1001]) = .ok twin
          ∧ (decoder.after 5).nextReading torn.permitted = some (decoder.after 5).next
          ∧ (decoder.after 0).next.2 = .ok (some ⟨1000, .int 42⟩)
          ∧ (twin.after 0).next.2 = .ok (some ⟨1000, .int 42⟩)
          ∧ (decoder.after 5).next.2 = .error (.truncated 3)
          ∧ (twin.after 5).next.2 = .error (.truncated 2)
          ∧ twin.collect = .error (.truncated 2) := by
  have valid : torn.Valid := ⟨by decide, by decide⟩
  have sound : (ofWords [1000, 42, 1001]).Valid := ⟨by decide, by decide⟩
  have same : (ofWords [1000, 42, 1001]).slice = torn.slice := by decide
  obtain ⟨decoder, opened, confined, _, found, spent, collected, alike⟩ :=
    (decoding_confined torn).2 valid
  obtain ⟨twin, twinOpened, answers, collects⟩ := alike _ sound same
  have first := found 0 ⟨1000, .int 42⟩ (by decide)
  have last := spent 5 (by decide)
  rw [if_pos (by decide)] at last collected
  refine ⟨valid, sound, same, decoder, twin, opened, twinOpened, confined 5, first, ?_, last, ?_,
    ?_⟩
  · rw [answers 0, first]
    rfl
  · rw [answers 5, last]
    rfl
  · rw [collects, collected]
    rfl

end PackedArray

end SeriesWire
