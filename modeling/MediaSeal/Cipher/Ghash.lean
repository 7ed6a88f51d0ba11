import MediaSeal.Aes.Block

/-!
# The universal hash of the counter mode

Blocks are read as polynomials over the two-element field, the first bit the
constant term, and multiplied modulo x¹²⁸ + x⁷ + x² + x + 1. The hash of a
list of blocks is the value at the hash key of the polynomial that has them as
coefficients.
-/

namespace MediaSeal.Ghash

/-- A field element: the bits of a block, first bit most significant. -/
structure Element where
  high : UInt64
  low : UInt64
deriving DecidableEq

namespace Element

def zero : Element := ⟨0, 0⟩

/-- The sum, which is also the difference. -/
@[inline] def add (x y : Element) : Element := ⟨x.high ^^^ y.high, x.low ^^^ y.low⟩

/-- Eight bytes as one word. -/
def wordOfColumns (c d : Aes.Column) : UInt64 :=
  (Word32.ofBigEndian c.b0 c.b1 c.b2 c.b3).toUInt64 <<< 32 |||
    (Word32.ofBigEndian d.b0 d.b1 d.b2 d.b3).toUInt64

/-- The element whose bits a block holds. -/
def ofBlock (block : Aes.Block) : Element :=
  ⟨wordOfColumns block.c0 block.c1, wordOfColumns block.c2 block.c3⟩

/-- The block that holds an element's bits. -/
def toBlock (x : Element) : Aes.Block :=
  Aes.Block.ofBytes (Word64.bigEndian x.high ++ Word64.bigEndian x.low)

/-- The sum of `z` and the product of `v` with the polynomial whose
coefficients are the first `count` bits of `x`, one bit of `x` at a time:
where it is set, `v` is added; then `v` is multiplied by x. -/
def addProduct : (count : Nat) → (xHigh xLow zHigh zLow vHigh vLow : UInt64) → Element
  | 0, _, _, zHigh, zLow, _, _ => ⟨zHigh, zLow⟩
  | count + 1, xHigh, xLow, zHigh, zLow, vHigh, vLow =>
    let taken := -(xHigh >>> 63)
    let carried := -(vLow &&& 1)
    addProduct count ((xHigh <<< 1) ||| (xLow >>> 63)) (xLow <<< 1)
      (zHigh ^^^ (vHigh &&& taken)) (zLow ^^^ (vLow &&& taken))
      ((vHigh >>> 1) ^^^ (carried &&& 0xe100000000000000)) ((vLow >>> 1) ||| (vHigh <<< 63))

/-- The product of two elements. -/
def mul (x y : Element) : Element := addProduct 128 x.high x.low 0 0 y.high y.low

end Element

/-- The hash of the blocks under a key. -/
def hash (key : Element) (blocks : List Aes.Block) : Element :=
  blocks.foldl (fun sum block => (sum.add (Element.ofBlock block)).mul key) Element.zero

end MediaSeal.Ghash
