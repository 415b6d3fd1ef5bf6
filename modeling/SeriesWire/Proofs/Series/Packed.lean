import Mathlib.Algebra.Group.Nat.Defs
import SeriesWire.Series.Packed

/-! Packed samples are read back as they were.
Times of whole seconds fit below the flags of a header, and a decoder reads its words two by two.
-/

namespace SeriesWire

/-- A sample at a whole second that fits into a header. -/
structure Point where
  second : Nat
  fits : second < 2 ^ 60
  number : Number

namespace Point

def time (point : Point) : Int64 :=
  Int64.ofNat point.second

def words (point : Point) : List Int64 :=
  Packed.pack false point.time point.number

def record (point : Point) : Packed.Record :=
  ⟨point.second, point.number⟩

/-- The sample lies in a window of seconds, of which both ends belong to it. -/
def within (first last : Int) (point : Point) : Bool :=
  first ≤ point.second ∧ point.second ≤ last

theorem toInt_time (point : Point) : point.time.toInt = point.second :=
  Int64.toInt_ofNat_of_lt (Nat.lt_trans point.fits (by decide))

end Point

namespace Packed

-----------------------------------------------------------------------------------------
-- One sample
-----------------------------------------------------------------------------------------

/-- What is read of a sample: of its time the lowest 60 bits, in whole seconds. -/
def recordOf : Bool × Int64 × Number → Record
  | (millis, time, number) =>
    let magnitude := (time.toInt % (2 ^ 60 : Nat)).toNat
    ⟨if millis then magnitude / 1000 else magnitude, number⟩

theorem or_and (a b c : UInt64) : (a ||| b) &&& c = (a &&& c) ||| (b &&& c) := by
  rw [← UInt64.toNat_inj]
  simp only [UInt64.toNat_and, UInt64.toNat_or, Nat.and_or_distrib_right]

/-- The mask takes a time modulo a power of two, also if it is negative. -/
theorem toNat_and_timeMask (time : Int64)
    : (time.toUInt64 &&& timeMask).toNat = (time.toInt % (2 ^ 60 : Nat)).toNat := by
  have mask : timeMask.toNat = 2 ^ 60 - 1 := by decide
  have word : time.toUInt64.toNat = time.toBitVec.toNat := rfl
  have value : time.toInt = time.toBitVec.toInt := rfl
  rw [UInt64.toNat_and, mask, Nat.and_two_pow_sub_one_eq_mod, word, value,
    BitVec.toInt_eq_toNat_cond]
  split <;> omega

/-- The time and the two flags of a header do not share a bit, so each is read back as it was. -/
theorem header_parts (time unit form : UInt64) (known : unit = 0 ∨ unit = millisFlag)
    (marked : form = 0 ∨ form = floatFlag)
    : (time &&& timeMask ||| unit ||| form) &&& timeMask = time &&& timeMask
      ∧ (time &&& timeMask ||| unit ||| form) &&& millisFlag = unit
      ∧ (time &&& timeMask ||| unit ||| form) &&& floatFlag = form := by
  have apart : timeMask &&& timeMask = timeMask
      ∧ timeMask &&& millisFlag = 0 ∧ timeMask &&& floatFlag = 0 := by
    decide
  have units : unit &&& timeMask = 0 ∧ unit &&& millisFlag = unit ∧ unit &&& floatFlag = 0 := by
    rcases known with rfl | rfl
    · simp
    · decide
  have forms : form &&& timeMask = 0 ∧ form &&& millisFlag = 0 ∧ form &&& floatFlag = form := by
    rcases marked with rfl | rfl
    · simp
    · decide
  simp only [or_and, UInt64.and_assoc, apart, units, forms, UInt64.and_zero, UInt64.or_zero,
    UInt64.zero_or, and_self]

/-- The two words of a sample are read as its record. -/
theorem unpack_pack (millis : Bool) (time : Int64) (number : Number)
    : ∃ header payload,
        pack millis time number = [header, payload]
        ∧ unpack header payload = recordOf (millis, time, number) := by
  have known : (if millis then millisFlag else 0) = 0
      ∨ (if millis then millisFlag else 0) = millisFlag := by
    cases millis
    · exact .inl rfl
    · exact .inr rfl
  have unit : ((if millis then millisFlag else 0) ≠ 0) = (millis = true) := by
    cases millis <;> decide
  cases number with
  | int value =>
      obtain ⟨masked, units, forms⟩ := header_parts time.toUInt64 _ 0 known (.inl rfl)
      rw [UInt64.or_zero] at masked units forms
      refine ⟨_, _, rfl, ?_⟩
      simp only [unpack, recordOf, UInt64.toUInt64_toInt64, masked, units, forms, unit,
        toNat_and_timeMask, ne_eq, not_true_eq_false, if_false]
  | double value =>
      obtain ⟨masked, units, forms⟩ := header_parts time.toUInt64 _ floatFlag known (.inr rfl)
      have marked : (floatFlag ≠ 0) = True := by decide
      refine ⟨_, _, rfl, ?_⟩
      simp only [unpack, recordOf, UInt64.toUInt64_toInt64, masked, units, forms, unit, marked,
        toNat_and_timeMask, if_true]

theorem recordOf_point (point : Point)
    : recordOf (false, point.time, point.number) = point.record := by
  have fits := point.fits
  have same : ((point.second : Int) % (2 ^ 60 : Nat)).toNat = point.second := by omega
  simp only [recordOf, point.toInt_time, same, Bool.false_eq_true, if_false, Point.record]

-----------------------------------------------------------------------------------------
-- Reading words
-----------------------------------------------------------------------------------------

namespace Decoder

/-- The words that are still to be read. -/
def rest (decoder : Decoder) : List Int64 :=
  (decoder.words.toList.take decoder.stop).drop decoder.index

theorem length_rest {decoder : Decoder} (bounded : decoder.stop ≤ decoder.words.size)
    : decoder.rest.length = decoder.stop - decoder.index := by
  rw [rest, List.length_drop, List.length_take, Array.length_toList, Nat.min_eq_left bounded]

theorem next_of_nil {decoder : Decoder} (bounded : decoder.stop ≤ decoder.words.size)
    (h : decoder.rest = [])
    : decoder.next = (decoder, .ok none) := by
  have length := length_rest bounded
  rw [h, List.length_nil] at length
  rw [next, if_pos (by omega)]

/-- Two words that are still to be read make the next record. -/
theorem next_of_rest {decoder : Decoder} (bounded : decoder.stop ≤ decoder.words.size)
    {header payload : Int64} {words : List Int64} (h : decoder.rest = header :: payload :: words)
    : decoder.next
        = ({ decoder with index := decoder.index + 2 }, .ok (some (unpack header payload)))
      ∧ { decoder with index := decoder.index + 2 : Decoder }.rest = words := by
  have length := length_rest bounded
  rw [h, List.length_cons, List.length_cons] at length
  have word (index : Nat) (inside : index < 2)
      : decoder.words[decoder.index + index]? = (header :: payload :: words)[index]? := by
    rw [← h, rest, List.getElem?_drop, List.getElem?_take_of_lt (by omega), Array.getElem?_toList]
  have first : decoder.words[decoder.index]? = some header := word 0 (by omega)
  have second : decoder.words[decoder.index + 1]? = some payload := word 1 (by omega)
  constructor
  · rw [next, if_neg (by omega), if_neg (by omega)]
    simp only [first, second, Option.getD_some]
  · have dropped : decoder.rest.drop 2 = words := by
      rw [h]
      rfl
    rwa [rest, List.drop_drop] at dropped

end Decoder

end Packed

end SeriesWire
