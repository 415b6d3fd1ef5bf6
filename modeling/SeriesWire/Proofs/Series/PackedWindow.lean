import SeriesWire.Proofs.Series.Leading
import SeriesWire.Proofs.Series.RoundTrip

/-! What a window reads of packed words, in whatever order their records are.
A record before the window is passed over wherever it stands, and the first other one behind the
window ends it. A word that is left over is an error, but only of a window that gets that far.
-/

namespace SeriesWire

namespace Packed

/-- The record ends a window: it is not before it, and it is behind it. -/
def ends (first last : Int) (record : Record) : Bool :=
  first ≤ record.seconds ∧ last < record.seconds

/-- The records of a window: those up to the first one that ends it, without those before it. -/
def windowed (first last : Int) (found : List Record) : List Record :=
  (found.takeWhile fun record => !ends first last record).filter fun record =>
    first ≤ record.seconds

variable {first last : Int} {record : Record} {found : List Record}

theorem windowed_of_early (early : (record.seconds : Int) < first)
    : windowed first last (record :: found) = windowed first last found := by
  simp [windowed, ends, Int.not_le.mpr early]

theorem windowed_of_ends (late : ends first last record = true)
    : windowed first last (record :: found) = [] := by
  simp [windowed, late]

theorem windowed_of_inside (begun : first ≤ (record.seconds : Int))
    (inside : ends first last record = false)
    : windowed first last (record :: found) = record :: windowed first last found := by
  simp [windowed, inside, begun]

/-- Only a record behind the window ends it, and in a window that does not end before it starts
every such record does.
-/
theorem ends_of_proper (proper : first ≤ last) (record : Record)
    : ends first last record = decide (last < (record.seconds : Int)) := by
  apply decide_eq_decide.mpr
  omega

theorem windowed_of_proper (proper : first ≤ last) (found : List Record)
    : windowed first last found
      = (found.takeWhile fun record => record.seconds ≤ last).filter fun record =>
          first ≤ record.seconds := by
  have inside (record : Record)
      : (!ends first last record) = decide ((record.seconds : Int) ≤ last) := by
    rw [ends_of_proper proper, ← decide_not]
    exact decide_eq_decide.mpr Int.not_lt
  simp only [windowed, inside]

/-- On records in order of time a window is a filter. -/
theorem windowed_of_ascending (ascending : found.Pairwise fun a b => a.seconds ≤ b.seconds)
    : windowed first last found
      = found.filter fun record => first ≤ record.seconds ∧ record.seconds ≤ last := by
  have earlier : found.Pairwise fun a b =>
      (!ends first last b) = true → (!ends first last a) = true := by
    apply ascending.imp
    intro a b le
    simp only [ends, Bool.not_eq_true', decide_eq_false_iff_not]
    omega
  rw [windowed, takeWhile_eq_filter earlier, List.filter_filter]
  apply List.filter_congr
  intro record _
  rw [Bool.eq_iff_iff]
  simp only [ends, Bool.and_eq_true, Bool.not_eq_true', decide_eq_true_eq, decide_eq_false_iff_not]
  omega

-----------------------------------------------------------------------------------------
-- One call
-----------------------------------------------------------------------------------------

/-- An ending is no record. -/
theorem Decoder.ending_cases (decoder : Decoder)
    : decoder.ending = .ok none ∨ ∃ cause, decoder.ending = .error cause := by
  unfold ending
  split
  · exact .inl rfl
  · exact .inr ⟨_, rfl⟩

/-- A decoder is at its ending, or it returns a record and is left with the others. -/
theorem Decoder.next_cases {decoder : Decoder} (bounded : decoder.stop ≤ decoder.words.size)
    : (records decoder.rest = [] ∧ decoder.next = (decoder, decoder.ending))
      ∨ ∃ record after,
          decoder.next = (after, .ok (some record))
          ∧ records decoder.rest = record :: records after.rest
          ∧ after.ending = decoder.ending
          ∧ after.stop ≤ after.words.size := by
  rcases words : decoder.rest with _ | ⟨header, _ | ⟨payload, rest⟩⟩
  · left
    rw [next_of_nil bounded words, ending_of_even bounded (by simp [words])]
    exact ⟨rfl, rfl⟩
  · left
    rw [next_of_single bounded words, ending_of_odd bounded (by simp [words])]
    exact ⟨rfl, rfl⟩
  · right
    obtain ⟨read, left⟩ := next_of_rest bounded words
    exact ⟨_, _, read, by rw [left]; rfl, ending_of_rest bounded words, bounded⟩

namespace WindowDecoder

/-- The answer to the call for the next record that comes after so many others, whatever they were
answered.
-/
def answer (window : WindowDecoder) : Nat → Except PackedError (Option Record)
  | 0 => window.next.2
  | place + 1 => window.next.1.answer place

/-- The records that are still to be returned. -/
def shown (window : WindowDecoder) : List Record :=
  if window.done then [] else windowed window.first window.last (records window.inner.rest)

/-- The answer behind the last record: nothing if a record ends the window, and else what the array
answers behind its own.
-/
def ending (window : WindowDecoder) : Except PackedError (Option Record) :=
  if window.done || (records window.inner.rest).any (ends window.first window.last) then .ok none
  else window.inner.ending

variable {window : WindowDecoder}

theorem ending_cases (window : WindowDecoder)
    : window.ending = .ok none ∨ ∃ cause, window.ending = .error cause := by
  unfold ending
  split
  · exact .inl rfl
  · exact window.inner.ending_cases

/-- The end of the array is the end of the window. -/
theorem next_of_none {inner : Decoder} (fresh : window.done = false)
    (h : window.inner.next = (inner, .ok none))
    : window.next = ({ window with inner, done := true }, .ok none) := by
  conv => lhs; unfold next
  rw [if_neg (by simp [fresh])]
  split <;> simp_all

/-- An error of the array is one of the window, which may be asked again. -/
theorem next_of_error {inner : Decoder} {cause : PackedError} (fresh : window.done = false)
    (h : window.inner.next = (inner, .error cause))
    : window.next = ({ window with inner }, .error cause) := by
  conv => lhs; unfold next
  rw [if_neg (by simp [fresh])]
  split <;> simp_all

/-- A record before the window is passed over, one behind it ends it, and any other is returned. -/
theorem next_of_some {inner : Decoder} {record : Record} (fresh : window.done = false)
    (h : window.inner.next = (inner, .ok (some record)))
    : window.next
      = if (record.seconds : Int) < window.first then { window with inner }.next
        else if window.last < record.seconds then ({ window with inner, done := true }, .ok none)
        else ({ window with inner }, .ok (some record)) := by
  conv => lhs; unfold next
  rw [if_neg (by simp [fresh])]
  split <;> simp_all

/-- A call returns the first record that is still to be returned, or else the ending, and the other
records and the ending are left, by induction on the records of which some are passed over.
-/
theorem exists_next (bounded : window.inner.stop ≤ window.inner.words.size)
    : ∃ after,
        window.next = (after, window.shown.head?.elim window.ending fun record => .ok (some record))
        ∧ after.shown = window.shown.tail
        ∧ after.ending = window.ending
        ∧ after.inner.stop ≤ after.inner.words.size := by
  obtain ⟨inner, first, last, done⟩ := window
  cases done with
  | true => exact ⟨_, by simp [next, shown, ending], rfl, rfl, bounded⟩
  | false =>
      generalize left : records inner.rest = found
      induction found generalizing inner with
      | nil =>
          have shown : shown ⟨inner, first, last, false⟩ = [] := by simp [shown, left, windowed]
          have ended : ending ⟨inner, first, last, false⟩ = inner.ending := by simp [ending, left]
          rcases inner.next_cases bounded with ⟨_, read⟩ | ⟨record, after, _, some, _⟩
          · rw [shown, ended]
            rcases inner.ending_cases with none | ⟨cause, error⟩
            · rw [none] at read ⊢
              exact ⟨_, next_of_none rfl read, rfl, rfl, bounded⟩
            · rw [error] at read ⊢
              exact ⟨_, next_of_error rfl read, shown, ended.trans error, bounded⟩
          · simp [left] at some
      | cons record rest ih =>
          rcases inner.next_cases bounded with ⟨none, _⟩ | ⟨found, after, read, split, kept, inside⟩
          · simp [left] at none
          obtain ⟨rfl, rfl⟩ := List.cons.inj (left.symm.trans split)
          have next := @next_of_some ⟨inner, first, last, false⟩ _ _ rfl read
          by_cases early : (record.seconds : Int) < first
          · obtain ⟨later, answered, others⟩ := ih after inside rfl
            have stays : ends first last record = false := by simp [ends, Int.not_le.mpr early]
            have shown : shown ⟨inner, first, last, false⟩ = shown ⟨after, first, last, false⟩ := by
              simp [shown, left, windowed_of_early early]
            have ended : ending ⟨inner, first, last, false⟩
                = ending ⟨after, first, last, false⟩ := by
              simp [ending, left, stays, kept]
            rw [next, if_pos early, shown, ended]
            exact ⟨later, answered, others⟩
          · have begun : first ≤ (record.seconds : Int) := Int.not_lt.mp early
            by_cases late : last < (record.seconds : Int)
            · have stops : ends first last record = true := decide_eq_true ⟨begun, late⟩
              have shown : shown ⟨inner, first, last, false⟩ = [] := by
                simp [shown, left, windowed_of_ends stops]
              have ended : ending ⟨inner, first, last, false⟩ = .ok none := by
                simp [ending, left, stops]
              rw [next, if_neg early, if_pos late, shown, ended]
              exact ⟨_, rfl, rfl, rfl, inside⟩
            · have stays : ends first last record = false := by simp [ends, late]
              have shown : shown ⟨inner, first, last, false⟩
                  = record :: shown ⟨after, first, last, false⟩ := by
                simp [shown, left, windowed_of_inside begun stays]
              have ended : ending ⟨inner, first, last, false⟩
                  = ending ⟨after, first, last, false⟩ := by
                simp [ending, left, stays, kept]
              rw [next, if_neg early, if_neg late, shown, ended]
              exact ⟨_, rfl, rfl, rfl, inside⟩

-----------------------------------------------------------------------------------------
-- All calls
-----------------------------------------------------------------------------------------

/-- The calls of a window return its records in order and then the ending for ever, by induction on
the calls.
-/
theorem answer_eq (bounded : window.inner.stop ≤ window.inner.words.size) (place : Nat)
    : window.answer place
      = window.shown[place]?.elim window.ending fun record => .ok (some record) := by
  induction place generalizing window with
  | zero =>
      obtain ⟨after, next, _⟩ := exists_next bounded
      rw [answer, next, ← List.head?_eq_getElem?]
  | succ place ih =>
      obtain ⟨after, next, shown, ended, left⟩ := exists_next bounded
      rw [answer, next, ih left, shown, ended, List.getElem?_tail]

/-- A window that returns nothing more has collected everything. -/
theorem collect_of_none {after : WindowDecoder} (h : window.next = (after, .ok none))
    : window.collect = .ok [] := by
  unfold collect
  split <;> simp_all

theorem collect_of_error {after : WindowDecoder} {cause : PackedError}
    (h : window.next = (after, .error cause))
    : window.collect = .error cause := by
  unfold collect
  split <;> simp_all

/-- A record that is returned comes before those that are collected after it. -/
theorem collect_of_some {after : WindowDecoder} {record : Record}
    (h : window.next = (after, .ok (some record)))
    : window.collect = after.collect.map (record :: ·) := by
  conv => lhs; unfold collect
  split <;> simp_all

/-- All records of a window are collected unless it gets to a word that is left over, by induction
on the records.
-/
theorem collect_eq (bounded : window.inner.stop ≤ window.inner.words.size)
    : window.collect = window.ending.map fun _ => window.shown := by
  generalize listed : window.shown = found
  induction found generalizing window with
  | nil =>
      obtain ⟨after, next, _⟩ := exists_next bounded
      rw [listed, List.head?_nil, Option.elim_none] at next
      rcases window.ending_cases with none | ⟨cause, error⟩
      · rw [none] at next ⊢
        rw [collect_of_none next]
        rfl
      · rw [error] at next ⊢
        rw [collect_of_error next]
        rfl
  | cons record rest ih =>
      obtain ⟨after, next, shown, ended, left⟩ := exists_next bounded
      rw [listed, List.head?_cons, Option.elim_some] at next
      rw [listed, List.tail_cons] at shown
      rw [collect_of_some next, ih left shown, ended]
      cases window.ending with
      | ok answer => rfl
      | error cause => rfl

end WindowDecoder

end Packed

-----------------------------------------------------------------------------------------
-- Arrays
-----------------------------------------------------------------------------------------

namespace PackedArray

open Packed

/-- The bounds lie within the words, in order. -/
structure Valid (array : PackedArray) : Prop where
  ordered : array.offset ≤ array.stop
  bounded : array.stop ≤ array.words.size

/-- The words that belong to the array. -/
def slice (array : PackedArray) : List Int64 :=
  (array.words.toList.take array.stop).drop array.offset

/-- A word of the array is left over. -/
def CutOff (array : PackedArray) : Prop :=
  (array.stop - array.offset) % 2 = 1

instance (array : PackedArray) : Decidable array.CutOff :=
  inferInstanceAs (Decidable (_ = _))

variable {array : PackedArray}

theorem Valid.decoder_of (valid : array.Valid)
    : Decoder.of array = .ok ⟨array.words, array.offset, array.stop⟩ := by
  have := valid.ordered
  have := valid.bounded
  exact if_neg (by omega)

/-- Only arrays with valid bounds are opened. -/
theorem valid_of_decoder_of {decoder : Decoder} (opened : Decoder.of array = .ok decoder)
    : array.Valid := by
  unfold Decoder.of at opened
  split at opened
  · cases opened
  · rename_i taken
    obtain ⟨bounded, ordered⟩ := not_or.mp taken
    exact ⟨Nat.le_of_not_lt ordered, Nat.le_of_not_lt bounded⟩

theorem Valid.window_of (valid : array.Valid) (first last : Int)
    : WindowDecoder.of array first last
      = .ok ⟨⟨array.words, array.offset, array.stop⟩, first, last, false⟩ := by
  rw [WindowDecoder.of, valid.decoder_of]
  rfl

/-- Behind its records, a decoder gets to a word that is left over. -/
theorem ending_decoder (array : PackedArray)
    : Decoder.ending ⟨array.words, array.offset, array.stop⟩
      = if array.CutOff then .error (.truncated (array.stop - 1)) else .ok none := by
  have remaining : Decoder.remaining ⟨array.words, array.offset, array.stop⟩
      = array.stop - array.offset := rfl
  rw [Decoder.ending, remaining]
  by_cases cut : array.CutOff
  · have odd : ¬(array.stop - array.offset) % 2 = 0 := by
      rw [CutOff] at cut
      omega
    rw [if_neg odd, if_pos cut]
  · have even : (array.stop - array.offset) % 2 = 0 := by
      rw [CutOff] at cut
      omega
    rw [if_pos even, if_neg cut]

/-- Behind its records, a window gets to a word that is left over unless a record ended it. -/
theorem ending_window (array : PackedArray) (first last : Int)
    : WindowDecoder.ending ⟨⟨array.words, array.offset, array.stop⟩, first, last, false⟩
      = if array.CutOff ∧ ∀ record ∈ records array.slice, ends first last record = false then
          .error (.truncated (array.stop - 1))
        else .ok none := by
  have all : (records array.slice).any (ends first last) = false
      ↔ ∀ record ∈ records array.slice, ends first last record = false := by
    simp
  have rest : Decoder.rest ⟨array.words, array.offset, array.stop⟩ = array.slice := rfl
  rw [WindowDecoder.ending, Bool.false_or, rest, ending_decoder]
  cases ended : (records array.slice).any (ends first last) with
  | false =>
      rw [if_neg Bool.false_ne_true]
      exact if_congr (and_iff_left (all.mp ended)).symm rfl rfl
  | true =>
      have behind : ¬∀ record ∈ records array.slice, ends first last record = false := by
        rw [← all, ended]
        decide
      rw [if_pos rfl, if_neg fun gets => behind gets.2]

/-- What a window over an array collects. -/
theorem Valid.collect_window (valid : array.Valid) (first last : Int)
    : (do (← WindowDecoder.of array first last).collect)
      = if array.CutOff ∧ ∀ record ∈ records array.slice, ends first last record = false then
          .error (.truncated (array.stop - 1))
        else .ok (windowed first last (records array.slice)) := by
  have collected := @WindowDecoder.collect_eq
    ⟨⟨array.words, array.offset, array.stop⟩, first, last, false⟩ valid.bounded
  rw [ending_window] at collected
  rw [valid.window_of first last]
  refine collected.trans ?_
  split <;> rfl

/-- What a window collects are the records that it reads, whatever the bounds are. -/
theorem eq_windowed_of_collect {first last : Int} {found : List Record}
    (collected : (do (← WindowDecoder.of array first last).collect) = .ok found)
    : found = windowed first last (records array.slice) := by
  have valid : array.Valid := by
    cases opened : Decoder.of array with
    | ok decoder => exact valid_of_decoder_of opened
    | error cause =>
        rw [WindowDecoder.of, opened] at collected
        cases collected
  rw [valid.collect_window] at collected
  split at collected
  · cases collected
  · exact (Except.ok.inj collected).symm

/-- A decoder returns the records of any array with valid bounds. A window over the array returns
those of them that are not before it, up to the first one behind it, one by one and in order. Every
later call finds nothing, except that a word left over is an error to a window that no record ended.
If the records are in order of time, those that lie in the window are returned.
-/
theorem answers_windowed (valid : array.Valid) {first last : Int} (proper : first ≤ last)
    : ∃ decoder window,
        Decoder.of array = .ok decoder
        ∧ WindowDecoder.of array first last = .ok window
        ∧ (∀ place record,
          decoder.answer place = .ok (some record) ↔ (records array.slice)[place]? = some record)
        ∧ ∃ shown,
            shown = ((records array.slice).takeWhile fun record => record.seconds ≤ last).filter
              (fun record => first ≤ record.seconds)
            ∧ (∀ place (listed : place < shown.length),
              window.answer place = .ok (some shown[place]))
            ∧ (∀ place,
              shown.length ≤ place
              → window.answer place
                = if array.CutOff ∧ ∀ record ∈ records array.slice, record.seconds ≤ last then
                    .error (.truncated (array.stop - 1))
                  else .ok none)
            ∧ ((records array.slice).Pairwise (fun a b => a.seconds ≤ b.seconds)
              → shown = (records array.slice).filter fun record =>
                  first ≤ record.seconds ∧ record.seconds ≤ last) := by
  have rest : Decoder.rest ⟨array.words, array.offset, array.stop⟩ = array.slice := rfl
  have answered := @WindowDecoder.answer_eq
    ⟨⟨array.words, array.offset, array.stop⟩, first, last, false⟩ valid.bounded
  have shown : WindowDecoder.shown ⟨⟨array.words, array.offset, array.stop⟩, first, last, false⟩
      = windowed first last (records array.slice) := rfl
  rw [shown, ending_window] at answered
  refine ⟨_, _, valid.decoder_of, valid.window_of first last, ?_, _,
    windowed_of_proper proper _, ?_, ?_, windowed_of_ascending⟩
  · intro place record
    rw [Decoder.answer_eq valid.bounded, rest]
    cases (records array.slice)[place]? with
    | some found => simp
    | none =>
        rcases Decoder.ending_cases ⟨array.words, array.offset, array.stop⟩ with none | ⟨_, error⟩
        · simp [none]
        · simp [error]
  · intro place listed
    rw [answered, List.getElem?_eq_getElem listed]
    rfl
  · intro place behind
    have stays (record : Record)
        : ends first last record = false ↔ (record.seconds : Int) ≤ last := by
      rw [ends_of_proper proper, decide_eq_false_iff_not, Int.not_lt]
    rw [answered, List.getElem?_eq_none behind, Option.elim_none]
    simp only [stays]

/-- Two records in the window with an early one between them, and a word that is left over. -/
def straggling : PackedArray :=
  .ofWords [5, 10, 15, 11, 3, 12, 20, 13, 99]

/-- The early records are passed over, and the window gets to the word that is left over. -/
theorem answers_windowed_straggling
    : straggling.Valid
      ∧ (10 : Int) ≤ 20
      ∧ ∃ window,
          WindowDecoder.of straggling 10 20 = .ok window
          ∧ window.answer 0 = .ok (some ⟨15, .int 11⟩)
          ∧ window.answer 1 = .ok (some ⟨20, .int 13⟩)
          ∧ ∀ place, 2 ≤ place → window.answer place = .error (.truncated 8) := by
  have valid : straggling.Valid := ⟨by decide, by decide⟩
  obtain ⟨_, window, _, opened, _, shown, found, inside, behind, _⟩ :=
    answers_windowed valid (by decide : (10 : Int) ≤ 20)
  have two : shown = [⟨15, .int 11⟩, ⟨20, .int 13⟩] := by
    rw [found]
    decide
  subst two
  refine ⟨valid, by decide, window, opened, inside 0 (by decide), inside 1 (by decide), ?_⟩
  intro place late
  rw [behind place late]
  exact if_pos (by decide)

end PackedArray

end SeriesWire
