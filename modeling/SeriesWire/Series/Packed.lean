import SeriesWire.Series.Value

/-! Packed numeric samples: two words a record, a header with flags and time, then the payload.
Decoding is bounds-checked once; a record cut off by the end is an error at its first word.
-/

namespace SeriesWire

/-- Words of which those from `offset` to before `stop` belong to the array. -/
structure PackedArray where
  words : Array Int64
  offset : Nat
  stop : Nat
  deriving DecidableEq, Repr

namespace Packed

/-- Marks a payload that is a double. -/
def floatFlag : UInt64 := 0x4000000000000000

/-- Marks a time that is in milliseconds. -/
def millisFlag : UInt64 := 0x2000000000000000

/-- The bits of a header that hold the time. -/
def timeMask : UInt64 := 0x0FFFFFFFFFFFFFFF

/-- A packed sample: its time in seconds and its number. -/
structure Record where
  seconds : Nat
  number : Number
  deriving DecidableEq, Repr

/-- The two words of a sample whose time is in milliseconds or in seconds. -/
def pack (millis : Bool) (time : Int64) (number : Number) : List Int64 :=
  let unit := if millis then millisFlag else 0
  match number with
  | .int value => [(time.toUInt64 &&& timeMask ||| unit).toInt64, value]
  | .double value =>
    [(time.toUInt64 &&& timeMask ||| unit ||| floatFlag).toInt64, value.bits.toInt64]

/-- The record that a header and a payload make; milliseconds are cut to seconds. -/
def unpack (header payload : Int64) : Record :=
  let bits := header.toUInt64
  let time := (bits &&& timeMask).toNat
  { seconds := if bits &&& millisFlag ≠ 0 then time / 1000 else time
    number := if bits &&& floatFlag ≠ 0 then .double ⟨payload.toUInt64⟩ else .int payload }

inductive PackedError where
  | bounds (offset stop length : Nat)
  | truncated (index : Nat)
  deriving DecidableEq, Repr

def PackedError.message : PackedError → String
  | .bounds offset stop length =>
    s!"invalid shard bounds: offset {offset}, end {stop}, len {length}"
  | .truncated index => s!"truncated record at word {index}"

end Packed

namespace PackedArray

open Packed

/-- An array to which all the words belong. -/
def ofWords (words : List Int64) : PackedArray :=
  ⟨words.toArray, 0, words.length⟩

/-- An array of samples, each given with whether its time is in milliseconds. -/
def ofSamples (samples : List (Bool × Int64 × Number)) : PackedArray :=
  ofWords (samples.flatMap fun (millis, time, number) => pack millis time number)

end PackedArray

namespace Packed

/-- A position in an array whose bounds have been checked. -/
structure Decoder where
  words : Array Int64
  index : Nat
  stop : Nat
  deriving DecidableEq, Repr

namespace Decoder

def of (array : PackedArray) : Except PackedError Decoder :=
  if array.words.size < array.stop ∨ array.stop < array.offset then
    .error (.bounds array.offset array.stop array.words.size)
  else .ok ⟨array.words, array.offset, array.stop⟩

/-- The words that are left. -/
def remaining (decoder : Decoder) : Nat :=
  decoder.stop - decoder.index

/-- The next record, nothing at the end, or the error of a lone last word. -/
def next (decoder : Decoder) : Decoder × Except PackedError (Option Record) :=
  if decoder.stop ≤ decoder.index then (decoder, .ok none)
  else if decoder.stop ≤ decoder.index + 1 then (decoder, .error (.truncated decoder.index))
  else
    let word (index : Nat) : Int64 := decoder.words[index]?.getD 0
    ({ decoder with index := decoder.index + 2 },
      .ok (some (unpack (word decoder.index) (word (decoder.index + 1)))))

/-- A record that is returned shortens what is left. -/
theorem remaining_lt_of_next {decoder after : Decoder} {record : Record}
    (h : decoder.next = (after, .ok (some record)))
    : after.remaining < decoder.remaining := by
  unfold next at h
  split at h
  · simp at h
  · split at h
    · simp at h
    · rename_i h₁ h₂
      cases h
      simp only [remaining]
      omega

/-- All records up to the end, or the first error. -/
def collect (decoder : Decoder) : Except PackedError (List Record) :=
  match _h : decoder.next with
  | (_, .error cause) => .error cause
  | (_, .ok none) => .ok []
  | (after, .ok (some record)) => (collect after).map (record :: ·)
  termination_by decoder.remaining
  decreasing_by exact remaining_lt_of_next _h

end Decoder

/-- A decoder that returns the records from `first` to `last` seconds only. The first later record
ends it for good. -/
structure WindowDecoder where
  inner : Decoder
  first : Int
  last : Int
  done : Bool
  deriving DecidableEq, Repr

namespace WindowDecoder

def of (array : PackedArray) (first last : Int) : Except PackedError WindowDecoder :=
  (Decoder.of array).map fun inner => ⟨inner, first, last, false⟩

/-- Passes over the records before the window. -/
def next (window : WindowDecoder) : WindowDecoder × Except PackedError (Option Record) :=
  if window.done then (window, .ok none)
  else
    match _h : window.inner.next with
    | (inner, .error cause) => ({ window with inner }, .error cause)
    | (inner, .ok none) => ({ window with inner, done := true }, .ok none)
    | (inner, .ok (some record)) =>
      if (record.seconds : Int) < window.first then next { window with inner }
      else if window.last < record.seconds then ({ window with inner, done := true }, .ok none)
      else ({ window with inner }, .ok (some record))
  termination_by window.inner.remaining
  decreasing_by exact Decoder.remaining_lt_of_next _h

/-- A record that is returned shortens what is left. -/
theorem remaining_lt_of_next {window after : WindowDecoder} {record : Record}
    (h : window.next = (after, .ok (some record)))
    : after.inner.remaining < window.inner.remaining := by
  fun_induction next window with
  | case1 => simp at h
  | case2 => simp at h
  | case3 => simp at h
  | case4 window _ inner found hn _ ih =>
      exact Nat.lt_trans (ih h) (Decoder.remaining_lt_of_next hn)
  | case5 => simp at h
  | case6 window _ inner found hn _ _ =>
      cases h
      exact Decoder.remaining_lt_of_next hn

/-- All records of the window up to its end, or the first error. -/
def collect (window : WindowDecoder) : Except PackedError (List Record) :=
  match _h : window.next with
  | (_, .error cause) => .error cause
  | (_, .ok none) => .ok []
  | (after, .ok (some record)) => (collect after).map (record :: ·)
  termination_by window.inner.remaining
  decreasing_by exact remaining_lt_of_next _h

end WindowDecoder

end Packed

end SeriesWire
