/-! The 64-bit XXH64 digest with seed zero, over a list of bytes.
The input is cut into little-endian words first; stripes of four words feed four accumulators, and
what is left over is mixed in one piece at a time.
-/

namespace SeriesWire.XX64

def prime1 : UInt64 := 0x9E3779B185EBCA87

def prime2 : UInt64 := 0xC2B2AE3D27D4EB4F

def prime3 : UInt64 := 0x165667B19E3779F9

def prime4 : UInt64 := 0x85EBCA77C2B2AE63

def prime5 : UInt64 := 0x27D4EB2F165667C5

def rotateLeft (x count : UInt64) : UInt64 :=
  x <<< count ||| x >>> (64 - count)

/-- The number written in the bytes, the least significant byte first. -/
def littleEndian : List UInt8 → UInt64
  | [] => 0
  | byte :: rest => byte.toUInt64 ||| littleEndian rest <<< 8

/-- The leading eight-byte words and the remaining bytes, fewer than eight. -/
def words : List UInt8 → List UInt64 × List UInt8
  | b₀ :: b₁ :: b₂ :: b₃ :: b₄ :: b₅ :: b₆ :: b₇ :: rest =>
    let tail := words rest
    (littleEndian [b₀, b₁, b₂, b₃, b₄, b₅, b₆, b₇] :: tail.1, tail.2)
  | rest => ([], rest)

def round (accumulator input : UInt64) : UInt64 :=
  rotateLeft (accumulator + input * prime2) 31 * prime1

/-- The four accumulators of the striped part. -/
structure Lanes where
  first : UInt64
  second : UInt64
  third : UInt64
  fourth : UInt64

def Lanes.initial : Lanes :=
  ⟨prime1 + prime2, prime2, 0, 0 - prime1⟩

/-- Feeds whole stripes; the words that fill no stripe are returned. -/
def Lanes.absorb (lanes : Lanes) : List UInt64 → Lanes × List UInt64
  | w₁ :: w₂ :: w₃ :: w₄ :: rest =>
    absorb ⟨round lanes.first w₁, round lanes.second w₂, round lanes.third w₃,
      round lanes.fourth w₄⟩ rest
  | rest => (lanes, rest)

def merge (hash lane : UInt64) : UInt64 :=
  (hash ^^^ round 0 lane) * prime1 + prime4

def Lanes.combined (lanes : Lanes) : UInt64 :=
  let sum := rotateLeft lanes.first 1 + rotateLeft lanes.second 7 + rotateLeft lanes.third 12
    + rotateLeft lanes.fourth 18
  [lanes.first, lanes.second, lanes.third, lanes.fourth].foldl merge sum

def mixWord (hash word : UInt64) : UInt64 :=
  rotateLeft (hash ^^^ round 0 word) 27 * prime1 + prime4

def mixHalfWord (hash word : UInt64) : UInt64 :=
  rotateLeft (hash ^^^ word * prime1) 23 * prime2 + prime3

def mixByte (hash : UInt64) (byte : UInt8) : UInt64 :=
  rotateLeft (hash ^^^ byte.toUInt64 * prime5) 11 * prime1

/-- Mixes in fewer than eight bytes: a half word if there is one, then single bytes. -/
def mixTail (hash : UInt64) : List UInt8 → UInt64
  | b₀ :: b₁ :: b₂ :: b₃ :: rest =>
    rest.foldl mixByte (mixHalfWord hash (littleEndian [b₀, b₁, b₂, b₃]))
  | rest => rest.foldl mixByte hash

/-- Spreads every input bit over the whole digest. -/
def avalanche (hash : UInt64) : UInt64 :=
  let hash := (hash ^^^ hash >>> 33) * prime2
  let hash := (hash ^^^ hash >>> 29) * prime3
  hash ^^^ hash >>> 32

/-- The digest of a byte string. -/
def digest (bytes : List UInt8) : UInt64 :=
  let length := bytes.length
  let cut := words bytes
  let striped := Lanes.initial.absorb cut.1
  let start := if 32 ≤ length then striped.1.combined else prime5
  let hash := striped.2.foldl mixWord (start + UInt64.ofNat length)
  avalanche (mixTail hash cut.2)

end SeriesWire.XX64
