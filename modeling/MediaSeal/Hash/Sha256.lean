import MediaSeal.Bytes

/-!
# SHA-256

The message is padded to whole blocks of sixteen words, and each block is
mixed into a chaining value of eight words by sixty-four rounds. Whatever the
message, the digest is thirty-two bytes wide.
-/

namespace MediaSeal.Sha256

/-! ## Padding -/

/-- How many zero bytes follow the delimiter, so that they, the delimiter and
the eight length bytes complete a block of sixty-four. -/
def paddingZeros (length : Nat) : Nat := (119 - length % 64) % 64

/-- The message, a delimiter, zeros, and the message's length in bits. -/
def pad (message : Bytes) : Bytes :=
  message ++ [0x80] ++ Bytes.zeros (paddingZeros message.length) ++
    Word64.bigEndian (UInt64.ofNat (8 * message.length))

/-! ## The chaining value -/

/-- The eight words carried from block to block. -/
structure State where
  a : UInt32
  b : UInt32
  c : UInt32
  d : UInt32
  e : UInt32
  f : UInt32
  g : UInt32
  h : UInt32
deriving DecidableEq

namespace State

/-- The chaining value before the first block. -/
def start : State :=
  ⟨0x6a09e667, 0xbb67ae85, 0x3c6ef372, 0xa54ff53a,
   0x510e527f, 0x9b05688c, 0x1f83d9ab, 0x5be0cd19⟩

/-- Words added place by place. -/
def add (s t : State) : State :=
  ⟨s.a + t.a, s.b + t.b, s.c + t.c, s.d + t.d, s.e + t.e, s.f + t.f, s.g + t.g, s.h + t.h⟩

/-- The words in order, most significant byte first. -/
def toBytes (s : State) : Bytes :=
  [s.a, s.b, s.c, s.d, s.e, s.f, s.g, s.h].flatMap Word32.bigEndian

@[simp] theorem length_toBytes (s : State) : s.toBytes.length = 32 := rfl

end State

/-! ## Rounds -/

/-- The sixty-four round constants. -/
def roundConstants : List UInt32 := [
  0x428a2f98, 0x71374491, 0xb5c0fbcf, 0xe9b5dba5, 0x3956c25b, 0x59f111f1, 0x923f82a4, 0xab1c5ed5,
  0xd807aa98, 0x12835b01, 0x243185be, 0x550c7dc3, 0x72be5d74, 0x80deb1fe, 0x9bdc06a7, 0xc19bf174,
  0xe49b69c1, 0xefbe4786, 0x0fc19dc6, 0x240ca1cc, 0x2de92c6f, 0x4a7484aa, 0x5cb0a9dc, 0x76f988da,
  0x983e5152, 0xa831c66d, 0xb00327c8, 0xbf597fc7, 0xc6e00bf3, 0xd5a79147, 0x06ca6351, 0x14292967,
  0x27b70a85, 0x2e1b2138, 0x4d2c6dfc, 0x53380d13, 0x650a7354, 0x766a0abb, 0x81c2c92e, 0x92722c85,
  0xa2bfe8a1, 0xa81a664b, 0xc24b8b70, 0xc76c51a3, 0xd192e819, 0xd6990624, 0xf40e3585, 0x106aa070,
  0x19a4c116, 0x1e376c08, 0x2748774c, 0x34b0bcb5, 0x391c0cb3, 0x4ed8aa4a, 0x5b9cca4f, 0x682e6ff3,
  0x748f82ee, 0x78a5636f, 0x84c87814, 0x8cc70208, 0x90befffa, 0xa4506ceb, 0xbef9a3f7, 0xc67178f2]

/-- The word that follows the sixteen or more words of a schedule. -/
def scheduledWord (words : Array UInt32) : UInt32 :=
  let back (distance : Nat) : UInt32 := words.getD (words.size - distance) 0
  let early := back 15
  let late := back 2
  back 16 + back 7 +
    (Word32.rotateRight early 7 ^^^ Word32.rotateRight early 18 ^^^ (early >>> 3)) +
    (Word32.rotateRight late 17 ^^^ Word32.rotateRight late 19 ^^^ (late >>> 10))

/-- A schedule grown by `count` words. -/
def extendSchedule : Nat → Array UInt32 → Array UInt32
  | 0, words => words
  | count + 1, words => extendSchedule count (words.push (scheduledWord words))

/-- One round, with the sum of its round constant and its schedule word. -/
def round (s : State) (roundWord : UInt32) : State :=
  let mixE := Word32.rotateRight s.e 6 ^^^ Word32.rotateRight s.e 11 ^^^ Word32.rotateRight s.e 25
  let choice := (s.e &&& s.f) ^^^ (~~~s.e &&& s.g)
  let first := s.h + mixE + choice + roundWord
  let mixA := Word32.rotateRight s.a 2 ^^^ Word32.rotateRight s.a 13 ^^^ Word32.rotateRight s.a 22
  let majority := (s.a &&& s.b) ^^^ (s.a &&& s.c) ^^^ (s.b &&& s.c)
  ⟨first + mixA + majority, s.a, s.b, s.c, s.d + first, s.e, s.f, s.g⟩

/-- The chaining value after one block of sixteen words. -/
def compress (s : State) (block : List UInt32) : State :=
  let schedule := extendSchedule 48 block.toArray
  s.add ((List.zipWith (· + ·) roundConstants schedule.toList).foldl round s)

/-- The chaining value after `count` blocks. -/
def absorb : Nat → List UInt32 → State → State
  | 0, _, s => s
  | count + 1, words, s => absorb count (words.drop 16) (compress s (words.take 16))

/-- The SHA-256 digest of a message. -/
def digest (message : Bytes) : Bytes :=
  let padded := pad message
  (absorb (padded.length / 64) (Word32.listOfBigEndian padded) State.start).toBytes

@[simp] theorem length_digest (message : Bytes) : (digest message).length = 32 := by
  simp [digest]

end MediaSeal.Sha256
