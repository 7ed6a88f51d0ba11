import MediaSeal.Aes.Substitution

/-!
# Columns of an AES block

Four bytes, on which the linear step of a round works. A byte stands for a
polynomial over the two-element field, taken modulo x⁸ + x⁴ + x³ + x + 1;
doubling is multiplication by x, and every multiple that the linear step needs
is a sum of doublings. Doubling distributes over exclusive or, so the step is
linear; done four times it changes nothing, and that is how it is undone.
-/

namespace MediaSeal.Aes

/-- Multiplication by x. -/
@[inline] def double (byte : UInt8) : UInt8 := (byte <<< 1) ^^^ ((byte >>> 7) * 0x1b)

/-- Four bytes of a block. -/
structure Column where
  b0 : UInt8
  b1 : UInt8
  b2 : UInt8
  b3 : UInt8
deriving DecidableEq, Inhabited

namespace Column

/-- The four bytes in order. -/
def toBytes (c : Column) : List UInt8 := [c.b0, c.b1, c.b2, c.b3]

/-- Bytes at the same place combined by exclusive or. -/
@[inline] def xor (c d : Column) : Column :=
  ⟨c.b0 ^^^ d.b0, c.b1 ^^^ d.b1, c.b2 ^^^ d.b2, c.b3 ^^^ d.b3⟩

/-- One function applied to each byte. -/
@[inline] def map (f : UInt8 → UInt8) (c : Column) : Column := ⟨f c.b0, f c.b1, f c.b2, f c.b3⟩

/-- The bytes moved up by one place, the first going last. -/
@[inline] def turn (c : Column) : Column := ⟨c.b1, c.b2, c.b3, c.b0⟩

/-- One byte of the mixed column: twice the first, three times the second. -/
@[inline] def mixed (a b c d : UInt8) : UInt8 := double a ^^^ double b ^^^ b ^^^ c ^^^ d

/-- The linear step. -/
@[inline] def mix (c : Column) : Column :=
  ⟨mixed c.b0 c.b1 c.b2 c.b3, mixed c.b1 c.b2 c.b3 c.b0,
   mixed c.b2 c.b3 c.b0 c.b1, mixed c.b3 c.b0 c.b1 c.b2⟩

/-- The linear step done twice: a byte and the one opposite it exchange four
times their sum. Done twice in turn, this changes nothing. -/
@[inline] def mixTwice (c : Column) : Column :=
  let even := double (double (c.b0 ^^^ c.b2))
  let odd := double (double (c.b1 ^^^ c.b3))
  ⟨c.b0 ^^^ even, c.b1 ^^^ odd, c.b2 ^^^ even, c.b3 ^^^ odd⟩

/-- The linear step undone. The step has order four, so three more undo one. -/
@[inline] def unmix (c : Column) : Column := c.mixTwice.mix

end Column

end MediaSeal.Aes
