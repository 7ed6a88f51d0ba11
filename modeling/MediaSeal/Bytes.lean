/-!
# Byte strings

Keys, frames, markers and ciphertexts are all plain lists of bytes, so that
taking one apart and putting it together again are list operations and their
laws are the laws of `++`, `take` and `drop`.

The word conversions at the end fix the two byte orders in use: the hash and
the authentication tags write their words with the most significant byte
first, the random key stream writes its words with the least significant byte
first.
-/

namespace MediaSeal

/-- A byte string. -/
abbrev Bytes := List UInt8

namespace Bytes

/-- The UTF-8 encoding of a text. -/
def ofText (text : String) : Bytes := text.toUTF8.data.toList

/-- Bytes at the same place combined by exclusive or; the longer side is cut. -/
def xor (left right : Bytes) : Bytes := List.zipWith (· ^^^ ·) left right

/-- A run of zero bytes. -/
def zeros (count : Nat) : Bytes := List.replicate count 0

theorem length_xor (left right : Bytes) :
    (xor left right).length = min left.length right.length := by
  simp [xor]

/-- Combining twice with the same bytes changes nothing, as long as there
are enough of them. -/
theorem xor_xor {left right : Bytes} (h : left.length ≤ right.length) :
    xor (xor left right) right = left := by
  induction left generalizing right with
  | nil => simp [xor]
  | cons a rest ih =>
    cases right with
    | nil => simp at h
    | cons b others =>
      have hbyte : a ^^^ b ^^^ b = a := by rw [UInt8.xor_assoc, UInt8.xor_self, UInt8.xor_zero]
      have hrest : xor (xor rest others) others = rest := ih (by simpa using h)
      exact List.cons_eq_cons.mpr ⟨hbyte, hrest⟩

end Bytes

/-! ## Words -/

namespace Word32

/-- The four bytes of a word, most significant first. -/
def bigEndian (word : UInt32) : Bytes :=
  [(word >>> 24).toUInt8, (word >>> 16).toUInt8, (word >>> 8).toUInt8, word.toUInt8]

/-- The four bytes of a word, least significant first. -/
def littleEndian (word : UInt32) : Bytes :=
  [word.toUInt8, (word >>> 8).toUInt8, (word >>> 16).toUInt8, (word >>> 24).toUInt8]

/-- The word whose bytes, most significant first, are the four given. -/
def ofBigEndian (a b c d : UInt8) : UInt32 :=
  (a.toUInt32 <<< 24) ||| (b.toUInt32 <<< 16) ||| (c.toUInt32 <<< 8) ||| d.toUInt32

/-- A word turned left by `bits` places, `0 < bits < 32`. -/
@[inline] def rotateLeft (word : UInt32) (bits : UInt32) : UInt32 :=
  (word <<< bits) ||| (word >>> (32 - bits))

/-- A word turned right by `bits` places, `0 < bits < 32`. -/
@[inline] def rotateRight (word : UInt32) (bits : UInt32) : UInt32 :=
  (word >>> bits) ||| (word <<< (32 - bits))

/-- The whole words at the front of a byte string, most significant byte
first; up to three bytes left over are not a word. -/
def listOfBigEndian : Bytes → List UInt32
  | a :: b :: c :: d :: rest => ofBigEndian a b c d :: listOfBigEndian rest
  | _ => []

@[simp] theorem length_bigEndian (word : UInt32) : (bigEndian word).length = 4 := rfl

@[simp] theorem length_littleEndian (word : UInt32) : (littleEndian word).length = 4 := rfl

end Word32

namespace Word64

/-- The eight bytes of a double word, most significant first. -/
def bigEndian (word : UInt64) : Bytes :=
  Word32.bigEndian (word >>> 32).toUInt32 ++ Word32.bigEndian word.toUInt32

@[simp] theorem length_bigEndian (word : UInt64) : (bigEndian word).length = 8 := rfl

end Word64

end MediaSeal
