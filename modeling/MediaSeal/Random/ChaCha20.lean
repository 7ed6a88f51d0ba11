import MediaSeal.Bytes

/-!
# The ChaCha20 key stream

An endless sequence of words determined by a key of eight words. It comes in
blocks of sixteen: a square of words that holds constants, the key and the
block's number is stirred by twenty rounds and added to itself. With the
square kept as four rows, a quarter round works on four columns at once, and
the diagonal rounds are column rounds between two turns of the rows.
-/

namespace MediaSeal.ChaCha20

/-- Four words side by side. -/
structure Row where
  a : UInt32
  b : UInt32
  c : UInt32
  d : UInt32
deriving DecidableEq

namespace Row

@[inline] def add (x y : Row) : Row := ⟨x.a + y.a, x.b + y.b, x.c + y.c, x.d + y.d⟩

@[inline] def xor (x y : Row) : Row :=
  ⟨x.a ^^^ y.a, x.b ^^^ y.b, x.c ^^^ y.c, x.d ^^^ y.d⟩

/-- Each word turned left by `bits` places. -/
@[inline] def rotate (bits : UInt32) (x : Row) : Row :=
  ⟨Word32.rotateLeft x.a bits, Word32.rotateLeft x.b bits, Word32.rotateLeft x.c bits,
   Word32.rotateLeft x.d bits⟩

/-- The words moved one place to the left, the first going last. -/
@[inline] def turn (x : Row) : Row := ⟨x.b, x.c, x.d, x.a⟩

/-- The words in order. -/
def toList (x : Row) : List UInt32 := [x.a, x.b, x.c, x.d]

end Row

/-- The sixteen words that are stirred. -/
structure Square where
  r0 : Row
  r1 : Row
  r2 : Row
  r3 : Row
deriving DecidableEq

namespace Square

/-- Words added place by place. -/
def add (s t : Square) : Square := ⟨s.r0.add t.r0, s.r1.add t.r1, s.r2.add t.r2, s.r3.add t.r3⟩

/-- A quarter round on every column. -/
def columnRound (s : Square) : Square :=
  let r0 := s.r0.add s.r1
  let r3 := (s.r3.xor r0).rotate 16
  let r2 := s.r2.add r3
  let r1 := (s.r1.xor r2).rotate 12
  let r0 := r0.add r1
  let r3 := (r3.xor r0).rotate 8
  let r2 := r2.add r3
  let r1 := (r1.xor r2).rotate 7
  ⟨r0, r1, r2, r3⟩

/-- Row `i` turned `i` times, which makes diagonals into columns. -/
def slant (s : Square) : Square := ⟨s.r0, s.r1.turn, s.r2.turn.turn, s.r3.turn.turn.turn⟩

/-- Row `i` turned `4 - i` times, which makes them diagonals again. -/
def unslant (s : Square) : Square := ⟨s.r0, s.r1.turn.turn.turn, s.r2.turn.turn, s.r3.turn⟩

/-- A column round and a diagonal round. -/
def doubleRound (s : Square) : Square := s.columnRound.slant.columnRound.unslant

/-- The words in order. -/
def toList (s : Square) : List UInt32 :=
  s.r0.toList ++ s.r1.toList ++ s.r2.toList ++ s.r3.toList

@[simp] theorem length_toList (s : Square) : s.toList.length = 16 := rfl

end Square

/-- A key of eight words. -/
structure Key where
  front : Row
  back : Row
deriving DecidableEq

/-- The words that blocks start with. -/
def constants : Row := ⟨0x61707865, 0x3320646e, 0x79622d32, 0x6b206574⟩

/-- The square from which a block is made; its number takes two words. -/
def start (key : Key) (number : UInt64) : Square :=
  ⟨constants, key.front, key.back, ⟨number.toUInt32, (number >>> 32).toUInt32, 0, 0⟩⟩

/-- The sixteen words of a block. -/
def block (key : Key) (number : UInt64) : List UInt32 :=
  let first := start key number
  ((List.range 10).foldl (fun s _ => s.doubleRound) first |>.add first).toList

/-- `count` words of the key stream from the word at `position` on. -/
def words (key : Key) (position count : Nat) : List UInt32 :=
  let skipped := position % 16
  let blocks := List.range' (position / 16) ((skipped + count + 15) / 16)
  ((blocks.flatMap fun number => block key (UInt64.ofNat number)).drop skipped).take count

@[simp] theorem length_block (key : Key) (number : UInt64) : (block key number).length = 16 := by
  simp [block]

theorem length_words (key : Key) (position count : Nat) :
    (words key position count).length = count := by
  simp [words, List.length_flatMap, List.map_const']
  omega

end MediaSeal.ChaCha20
