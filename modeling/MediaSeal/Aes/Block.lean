import MediaSeal.Aes.Column
import MediaSeal.Bytes

/-!
# AES blocks

Sixteen bytes as four columns. Having the width in the type means that no
function on blocks has a length to check; byte strings of other lengths meet
blocks only in `ofBytes`, which reads zeros past the end, and in `listOfBytes`,
which cuts a byte string into as many blocks as it takes to cover it.
-/

namespace MediaSeal.Aes

/-- Sixteen bytes, column by column. -/
structure Block where
  c0 : Column
  c1 : Column
  c2 : Column
  c3 : Column
deriving DecidableEq, Inhabited

namespace Block

/-- The sixteen bytes in order. -/
def toBytes (block : Block) : Bytes :=
  block.c0.toBytes ++ block.c1.toBytes ++ block.c2.toBytes ++ block.c3.toBytes

/-- The first sixteen bytes of a byte string, zeros standing for missing ones. -/
def ofBytes (bytes : Bytes) : Block :=
  let column (i : Nat) : Column :=
    ⟨bytes.getD i 0, bytes.getD (i + 1) 0, bytes.getD (i + 2) 0, bytes.getD (i + 3) 0⟩
  ⟨column 0, column 4, column 8, column 12⟩

/-- The first `count` blocks of a byte string. -/
def takeOfBytes : Nat → Bytes → List Block
  | 0, _ => []
  | count + 1, bytes => ofBytes bytes :: takeOfBytes count (bytes.drop 16)

/-- The blocks that cover a byte string, the last one filled up with zeros. -/
def listOfBytes (bytes : Bytes) : List Block := takeOfBytes ((bytes.length + 15) / 16) bytes

/-- The bytes of one block after the other. -/
def listToBytes (blocks : List Block) : Bytes := blocks.flatMap toBytes

/-- Bytes at the same place combined by exclusive or. -/
@[inline] def xor (a b : Block) : Block :=
  ⟨a.c0.xor b.c0, a.c1.xor b.c1, a.c2.xor b.c2, a.c3.xor b.c3⟩

@[simp] theorem length_toBytes (block : Block) : block.toBytes.length = 16 := rfl

@[simp] theorem ofBytes_toBytes_append (block : Block) (rest : Bytes) :
    ofBytes (block.toBytes ++ rest) = block := rfl

@[simp] theorem ofBytes_toBytes (block : Block) : ofBytes block.toBytes = block := rfl

@[simp] theorem length_listToBytes (blocks : List Block) :
    (listToBytes blocks).length = 16 * blocks.length := by
  induction blocks with
  | nil => rfl
  | cons block rest ih =>
    simp only [listToBytes, List.flatMap_cons, List.length_append, length_toBytes,
      List.length_cons] at ih ⊢
    omega

end Block

end MediaSeal.Aes
