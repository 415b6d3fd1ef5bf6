import Mathlib.Data.List.Induction
import Mathlib.Data.Nat.Bitwise
import SeriesWire.Proofs.Series.Packed

/-! What is packed is decoded, and what is decoded can be packed again.
A decoder reads its words two by two and answers every call behind the last record alike. The time
and the flags of a header keep out of each other's way, so any time and any number can be packed,
and a header without unused bits is that of exactly one sample at a whole second.
-/

namespace SeriesWire

namespace Packed

-----------------------------------------------------------------------------------------
-- Decoding words
-----------------------------------------------------------------------------------------

/-- The records that words make, two by two. -/
def records : List Int64 → List Record
  | header :: payload :: rest => unpack header payload :: records rest
  | _ => []

namespace Decoder

/-- The answer to the call for the next record that comes after so many others, whatever they were
answered.
-/
def answer (decoder : Decoder) : Nat → Except PackedError (Option Record)
  | 0 => decoder.next.2
  | place + 1 => decoder.next.1.answer place

/-- The answer behind the last record: nothing, or the error of a word that is left over. -/
def ending (decoder : Decoder) : Except PackedError (Option Record) :=
  if decoder.remaining % 2 = 0 then .ok none else .error (.truncated (decoder.stop - 1))

variable {decoder : Decoder}

/-- A lone last word is refused, and it stays where it is. -/
theorem next_of_single (bounded : decoder.stop ≤ decoder.words.size) {word : Int64}
    (h : decoder.rest = [word])
    : decoder.next = (decoder, .error (.truncated (decoder.stop - 1))) := by
  have length := length_rest bounded
  rw [h, List.length_singleton] at length
  have last : decoder.index = decoder.stop - 1 := by omega
  rw [next, if_neg (by omega), if_pos (by omega), ← last]

/-- A record takes two words, so the ending stays the same. -/
theorem ending_of_rest (bounded : decoder.stop ≤ decoder.words.size)
    {header payload : Int64} {words : List Int64} (h : decoder.rest = header :: payload :: words)
    : { decoder with index := decoder.index + 2 : Decoder }.ending = decoder.ending := by
  have length := length_rest bounded
  rw [h, List.length_cons, List.length_cons] at length
  have parity : (decoder.stop - (decoder.index + 2)) % 2 = (decoder.stop - decoder.index) % 2 := by
    omega
  rw [ending, ending, remaining, remaining, parity]

theorem ending_of_even (bounded : decoder.stop ≤ decoder.words.size)
    (even : decoder.rest.length % 2 = 0)
    : decoder.ending = .ok none := by
  rw [length_rest bounded] at even
  exact if_pos even

theorem ending_of_odd (bounded : decoder.stop ≤ decoder.words.size)
    (odd : decoder.rest.length % 2 = 1)
    : decoder.ending = .error (.truncated (decoder.stop - 1)) := by
  rw [length_rest bounded] at odd
  exact if_neg (by rw [remaining]; omega)

/-- The calls of a decoder return its records in order and then the ending for ever, by induction on
the calls.
-/
theorem answer_eq (bounded : decoder.stop ≤ decoder.words.size) (place : Nat)
    : decoder.answer place
      = (records decoder.rest)[place]?.elim decoder.ending fun record => .ok (some record) := by
  induction place generalizing decoder with
  | zero =>
      rw [answer]
      rcases words : decoder.rest with _ | ⟨header, _ | ⟨payload, rest⟩⟩
      · rw [next_of_nil bounded words, ending_of_even bounded (by simp [words])]
        rfl
      · rw [next_of_single bounded words, ending_of_odd bounded (by simp [words])]
        rfl
      · rw [(next_of_rest bounded words).1]
        rfl
  | succ place ih =>
      rw [answer]
      rcases words : decoder.rest with _ | ⟨header, _ | ⟨payload, rest⟩⟩
      · rw [next_of_nil bounded words, ih bounded, words]
        rfl
      · rw [next_of_single bounded words, ih bounded, words]
        rfl
      · obtain ⟨read, left⟩ := next_of_rest bounded words
        have later := @ih { decoder with index := decoder.index + 2 } bounded
        rw [left, ending_of_rest bounded words] at later
        rw [read, later]
        rfl

/-- The records up to a failure are collected by the calls that return them. -/
theorem collect_of_next {after : Decoder} {record : Record}
    (h : decoder.next = (after, .ok (some record)))
    : decoder.collect = after.collect.map (record :: ·) := by
  conv => lhs; unfold collect
  split <;> simp_all

/-- Without a further record, the answer of the call is all there is. -/
theorem collect_of_last {cause : PackedError} (h : decoder.next = (decoder, .error cause))
    : decoder.collect = .error cause := by
  unfold collect
  split <;> simp_all

theorem collect_of_none (h : decoder.next = (decoder, .ok none)) : decoder.collect = .ok [] := by
  unfold collect
  split <;> simp_all

/-- All records are collected unless a word is left over, by induction on the words, two by two. -/
theorem collect_eq (bounded : decoder.stop ≤ decoder.words.size)
    : decoder.collect = decoder.ending.map fun _ => records decoder.rest := by
  generalize words : decoder.rest = remaining
  induction remaining using List.twoStepInduction generalizing decoder with
  | nil =>
      rw [collect_of_none (next_of_nil bounded words), ending_of_even bounded (by simp [words])]
      rfl
  | singleton word =>
      rw [collect_of_last (next_of_single bounded words), ending_of_odd bounded (by simp [words])]
      rfl
  | cons_cons header payload rest ih _ =>
      obtain ⟨read, left⟩ := next_of_rest bounded words
      have later := @ih { decoder with index := decoder.index + 2 } bounded left
      rw [ending_of_rest bounded words] at later
      rw [collect_of_next read, later]
      cases decoder.ending with
      | ok answer => rfl
      | error cause => rfl

end Decoder

/-- The two words of a sample. -/
def wordsOf (sample : Bool × Int64 × Number) : List Int64 :=
  pack sample.1 sample.2.1 sample.2.2

theorem ofSamples_eq (samples : List (Bool × Int64 × Number))
    : PackedArray.ofSamples samples = .ofWords (samples.flatMap wordsOf) :=
  rfl

/-- Samples are decoded as their records, by induction on the samples. -/
theorem records_flatMap_wordsOf (samples : List (Bool × Int64 × Number))
    : records (samples.flatMap wordsOf) = samples.map recordOf := by
  induction samples with
  | nil => rfl
  | cons sample rest ih =>
      obtain ⟨header, payload, words, record⟩ := unpack_pack sample.1 sample.2.1 sample.2.2
      rw [List.flatMap_cons, wordsOf, words, List.map_cons, ← ih, ← record]
      rfl

/-- Every sample takes two words. -/
theorem length_flatMap_wordsOf (samples : List (Bool × Int64 × Number))
    : (samples.flatMap wordsOf).length % 2 = 0 := by
  induction samples with
  | nil => rfl
  | cons sample rest ih =>
      obtain ⟨header, payload, words, _⟩ := unpack_pack sample.1 sample.2.1 sample.2.2
      rw [List.flatMap_cons, wordsOf, words, List.length_append, List.length_cons,
        List.length_singleton]
      omega

-----------------------------------------------------------------------------------------
-- Packing records again
-----------------------------------------------------------------------------------------

/-- The bits of a header that samples at whole seconds leave clear: bit 60 above the time, bit 61
that marks milliseconds, and the sign.
-/
def unusedBits : UInt64 := 0xB000000000000000

/-- The headers among words, which are taken two by two. -/
def headers : List Int64 → List Int64
  | header :: _ :: rest => header :: headers rest
  | _ => []

/-- The sample at a whole second from which the record is read. -/
def Record.sample (record : Record) : Bool × Int64 × Number :=
  (false, Int64.ofNat record.seconds, record.number)

/-- A header without unused bits consists of its time and the mark of its number. -/
theorem eq_of_unused_clear {bits : UInt64} (clear : bits &&& unusedBits = 0)
    : bits &&& timeMask ||| bits &&& floatFlag = bits := by
  have every : timeMask ||| floatFlag ||| unusedBits = -1 := by decide
  calc bits &&& timeMask ||| bits &&& floatFlag
      = bits &&& timeMask ||| bits &&& floatFlag ||| bits &&& unusedBits := by
        rw [clear, UInt64.or_zero]
    _ = (timeMask ||| floatFlag ||| unusedBits) &&& bits := by
        rw [or_and, or_and, UInt64.and_comm bits, UInt64.and_comm bits, UInt64.and_comm bits]
    _ = bits := by rw [every, UInt64.neg_one_and]

/-- The mark of a double is a single bit. -/
theorem and_floatFlag_of_ne_zero {bits : UInt64} (marked : bits &&& floatFlag ≠ 0)
    : bits &&& floatFlag = floatFlag := by
  have flag : floatFlag.toNat = 2 ^ 62 := by decide
  have single : (bits &&& floatFlag).toNat = (bits.toNat.testBit 62).toNat * 2 ^ 62 := by
    rw [UInt64.toNat_and, flag, Nat.and_two_pow]
  cases bit : bits.toNat.testBit 62 with
  | false => exact absurd (UInt64.toNat_inj.mp (by simpa [bit] using single)) marked
  | true => exact UInt64.toNat_inj.mp (by rw [single, bit, flag]; rfl)

/-- A record that was read behind a header without unused bits is packed as the same two words. -/
theorem wordsOf_unpack {header payload : Int64} (clear : header.toUInt64 &&& unusedBits = 0)
    : wordsOf (unpack header payload).sample = [header, payload] := by
  have whole := eq_of_unused_clear clear
  have flags : millisFlag = unusedBits &&& millisFlag := by decide
  have seconds : header.toUInt64 &&& millisFlag = 0 := by
    rw [flags, ← UInt64.and_assoc, clear, UInt64.zero_and]
  have masked : timeMask &&& timeMask = timeMask := by decide
  have time : (Int64.ofNat (header.toUInt64 &&& timeMask).toNat).toUInt64
      = header.toUInt64 &&& timeMask := by
    rw [Int64.toUInt64_ofNat', UInt64.ofNat_toNat]
  by_cases marked : header.toUInt64 &&& floatFlag = 0
  · have header_eq : (header.toUInt64 &&& timeMask).toInt64 = header := by
      rw [marked, UInt64.or_zero] at whole
      rw [whole, Int64.toInt64_toUInt64]
    simp only [wordsOf, Record.sample, unpack, pack, seconds, marked, ne_eq, not_true_eq_false,
      if_false, Bool.false_eq_true, time, UInt64.and_assoc, masked, UInt64.or_zero, header_eq]
  · have header_eq : (header.toUInt64 &&& timeMask ||| floatFlag).toInt64 = header := by
      rw [and_floatFlag_of_ne_zero marked] at whole
      rw [whole, Int64.toInt64_toUInt64]
    simp only [wordsOf, Record.sample, unpack, pack, seconds, marked, ne_eq, not_true_eq_false,
      not_false_eq_true, if_true, if_false, Bool.false_eq_true, time, UInt64.and_assoc, masked,
      UInt64.or_zero, header_eq, Int64.toInt64_toUInt64]

/-- Words without unused bits in their headers are those of the samples that are read from them, by
induction on the words, two by two.
-/
theorem flatMap_wordsOf_records {words : List Int64} (even : words.length % 2 = 0)
    (clear : ∀ header ∈ headers words, header.toUInt64 &&& unusedBits = 0)
    : (records words).flatMap (fun record => wordsOf record.sample) = words := by
  induction words using List.twoStepInduction with
  | nil => rfl
  | singleton word => simp at even
  | cons_cons header payload rest ih _ =>
      have fewer : rest.length % 2 = 0 := by
        rw [List.length_cons, List.length_cons] at even
        omega
      have later := ih fewer fun other member => clear other (by simp [headers, member])
      rw [records, List.flatMap_cons, later, wordsOf_unpack (clear header (by simp [headers]))]
      rfl

end Packed

namespace PackedArray

open Packed

/-- The bounds of an array to which all words belong are valid. -/
theorem exists_decoder (words : List Int64)
    : ∃ decoder,
        Decoder.of (ofWords words) = .ok decoder
        ∧ decoder.rest = words
        ∧ decoder.stop ≤ decoder.words.size := by
  have inside : ¬(words.toArray.size < words.length ∨ words.length < 0) := by simp
  refine ⟨⟨words.toArray, 0, words.length⟩, if_neg inside, ?_, by simp⟩
  simp [Decoder.rest]

/-- Any samples that are packed, with any times and any numbers, are decoded one by one, in order
and without an error: with the same number bit by bit, and with the time modulo `2 ^ 60`, cut to
seconds if it was in milliseconds. All later calls return nothing. A time in seconds that fits is
not changed. And any words that come in pairs, with headers that leave the unused bits clear, are
those that the samples of the decoded records are packed as.
-/
theorem decoded_ofSamples
    : (∀ samples,
        ∃ decoder,
          Decoder.of (ofSamples samples) = .ok decoder
          ∧ decoder.collect = .ok (samples.map recordOf)
          ∧ ∀ place, decoder.answer place = .ok (samples.map recordOf)[place]?)
      ∧ (∀ (time : Int64) number,
        0 ≤ time.toInt
        → time.toInt < (2 ^ 60 : Nat)
        → ((recordOf (false, time, number)).seconds : Int) = time.toInt)
      ∧ ∀ words,
        words.length % 2 = 0
        → (∀ header ∈ headers words, header.toUInt64 &&& unusedBits = 0)
        → ∃ decoder found,
          Decoder.of (ofWords words) = .ok decoder
          ∧ decoder.collect = .ok found
          ∧ ofSamples (found.map Record.sample) = ofWords words := by
  refine ⟨fun samples => ?_, fun time number positive fits => ?_, fun words even clear => ?_⟩
  · obtain ⟨decoder, opened, rest, bounded⟩ := exists_decoder (samples.flatMap wordsOf)
    have ended : decoder.ending = .ok none :=
      Decoder.ending_of_even bounded (rest ▸ length_flatMap_wordsOf samples)
    refine ⟨decoder, opened, ?_, fun place => ?_⟩
    · rw [Decoder.collect_eq bounded, ended, rest, records_flatMap_wordsOf]
      rfl
    · rw [Decoder.answer_eq bounded, ended, rest, records_flatMap_wordsOf]
      cases (samples.map recordOf)[place]? with
      | none => rfl
      | some record => rfl
  · have same : ((time.toInt % (2 ^ 60 : Nat)).toNat : Int) = time.toInt := by omega
    simpa only [recordOf, Bool.false_eq_true, if_false] using same
  · obtain ⟨decoder, opened, rest, bounded⟩ := exists_decoder words
    refine ⟨decoder, records words, opened, ?_, ?_⟩
    · rw [Decoder.collect_eq bounded, Decoder.ending_of_even bounded (rest ▸ even), rest]
      rfl
    · rw [ofSamples_eq, List.flatMap_map, flatMap_wordsOf_records even clear]

/-- A time before the epoch, one in milliseconds that does not fit, and a number that is not one. -/
def mixedSamples : List (Bool × Int64 × Number) :=
  [(false, -1, .int (-5)), (true, 1152921504606848975, .double ⟨0x7FF8000000000001⟩),
    (false, 10, .double ⟨0x8000000000000000⟩)]

/-- The time before the epoch is read as the last one that fits, the one in milliseconds is cut, and
the numbers are the same bit by bit. The words of a double and of an integer are packed again.
-/
theorem decoded_ofSamples_mixed
    : (∃ decoder,
        Decoder.of (ofSamples mixedSamples) = .ok decoder
        ∧ decoder.collect
          = .ok
              [⟨2 ^ 60 - 1, .int (-5)⟩, ⟨1, .double ⟨0x7FF8000000000001⟩⟩,
                ⟨10, .double ⟨0x8000000000000000⟩⟩]
        ∧ decoder.answer 3 = .ok none)
      ∧ ((recordOf (false, 1000, .int 7)).seconds : Int) = 1000
      ∧ ∃ decoder found,
          Decoder.of (ofWords [0x4000000000000014, -1, 30, -7]) = .ok decoder
          ∧ decoder.collect = .ok found
          ∧ ofSamples (found.map Record.sample) = ofWords [0x4000000000000014, -1, 30, -7] := by
  obtain ⟨decoded, whole, packed⟩ := decoded_ofSamples
  have clear : ∀ header ∈ headers [0x4000000000000014, -1, 30, -7],
      header.toUInt64 &&& unusedBits = 0 := by
    have two : headers [0x4000000000000014, -1, 30, -7] = [0x4000000000000014, 30] := rfl
    rw [two, List.forall_mem_cons, List.forall_mem_singleton]
    decide
  refine ⟨?_, whole 1000 (.int 7) (by decide) (by decide), packed _ (by decide) clear⟩
  obtain ⟨decoder, opened, collected, answered⟩ := decoded mixedSamples
  have records : mixedSamples.map recordOf
      = [⟨2 ^ 60 - 1, .int (-5)⟩, ⟨1, .double ⟨0x7FF8000000000001⟩⟩,
          ⟨10, .double ⟨0x8000000000000000⟩⟩] := by
    decide
  refine ⟨decoder, opened, records ▸ collected, ?_⟩
  rw [answered 3, records]
  rfl

end PackedArray

end SeriesWire
