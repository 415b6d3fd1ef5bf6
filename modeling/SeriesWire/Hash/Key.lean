import SeriesWire.Hash.XX64

/-! Hash keys of byte strings and of sequences of byte strings.
A sequence is framed first: every part is preceded by its length, so parts cannot run together.
-/

namespace SeriesWire

/-- The digest of a byte string, with zero replaced by one: zero never names a series. -/
def hashKey (bytes : List UInt8) : UInt64 :=
  let digest := XX64.digest bytes
  if digest = 0 then 1 else digest

/-- The four bytes of a length modulo `2 ^ 32`, the most significant byte first. -/
def lengthBytes (length : Nat) : List UInt8 :=
  [24, 16, 8, 0].map fun shift => UInt8.ofNat (length >>> shift)

/-- One part behind its length. -/
def framePart (part : List UInt8) : List UInt8 :=
  lengthBytes part.length ++ part

/-- All parts, each behind its length. -/
def frame (parts : List (List UInt8)) : List UInt8 :=
  parts.flatMap framePart

/-- The hash key of a sequence of byte strings. -/
def hashParts (parts : List (List UInt8)) : UInt64 :=
  hashKey (frame parts)

end SeriesWire
