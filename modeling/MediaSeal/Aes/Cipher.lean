import MediaSeal.Aes.Block

/-!
# AES-128 on one block

The key is stretched into eleven round keys. Encryption adds the first and
then runs one round per remaining key, the last round without the linear
step; decryption walks the same keys from the other end, undoing each step.
-/

namespace MediaSeal.Aes

/-! ## The steps of a round -/

namespace Block

/-- One function applied to each byte. -/
@[inline] def map (f : UInt8 → UInt8) (block : Block) : Block :=
  ⟨block.c0.map f, block.c1.map f, block.c2.map f, block.c3.map f⟩

/-- Row `i` moved `i` columns to the left. -/
def shiftRows (s : Block) : Block :=
  ⟨⟨s.c0.b0, s.c1.b1, s.c2.b2, s.c3.b3⟩, ⟨s.c1.b0, s.c2.b1, s.c3.b2, s.c0.b3⟩,
   ⟨s.c2.b0, s.c3.b1, s.c0.b2, s.c1.b3⟩, ⟨s.c3.b0, s.c0.b1, s.c1.b2, s.c2.b3⟩⟩

/-- Row `i` moved `i` columns to the right. -/
def unshiftRows (s : Block) : Block :=
  ⟨⟨s.c0.b0, s.c3.b1, s.c2.b2, s.c1.b3⟩, ⟨s.c1.b0, s.c0.b1, s.c3.b2, s.c2.b3⟩,
   ⟨s.c2.b0, s.c1.b1, s.c0.b2, s.c3.b3⟩, ⟨s.c3.b0, s.c2.b1, s.c1.b2, s.c0.b3⟩⟩

/-- The linear step on every column. -/
def mixColumns (s : Block) : Block := ⟨s.c0.mix, s.c1.mix, s.c2.mix, s.c3.mix⟩

/-- The linear step undone on every column. -/
def unmixColumns (s : Block) : Block := ⟨s.c0.unmix, s.c1.unmix, s.c2.unmix, s.c3.unmix⟩

theorem unshiftRows_shiftRows (s : Block) : s.shiftRows.unshiftRows = s := rfl

theorem shiftRows_unshiftRows (s : Block) : s.unshiftRows.shiftRows = s := rfl

end Block

/-! ## Round keys -/

/-- The round key that follows another, under the round constant given. -/
def nextRoundKey (key : Block) (constant : UInt8) : Block :=
  let turned := key.c3.turn.map substitute
  let c0 := (key.c0.xor turned).xor ⟨constant, 0, 0, 0⟩
  let c1 := key.c1.xor c0
  let c2 := key.c2.xor c1
  ⟨c0, c1, c2, key.c3.xor c2⟩

/-- The constants of the ten rounds. -/
def roundConstants : List UInt8 := [0x01, 0x02, 0x04, 0x08, 0x10, 0x20, 0x40, 0x80, 0x1b, 0x36]

/-- The round keys after the first, in order. -/
def roundKeysFrom : Block → List UInt8 → List Block
  | _, [] => []
  | key, constant :: constants =>
    let next := nextRoundKey key constant
    next :: roundKeysFrom next constants

/-- A key made ready for use. -/
structure Schedule where
  /-- Added before the first round. -/
  whitening : Block
  /-- One key per round. -/
  rounds : List Block

/-- The schedule of a sixteen-byte key. -/
def Schedule.ofKey (key : Block) : Schedule := ⟨key, roundKeysFrom key roundConstants⟩

/-! ## Encryption and decryption -/

/-- The rounds that the keys stand for; the last one has no linear step. -/
def encryptRounds : List Block → Block → Block
  | [], s => s
  | [key], s => (s.map substitute).shiftRows.xor key
  | key :: next :: keys, s =>
    encryptRounds (next :: keys) ((s.map substitute).shiftRows.mixColumns.xor key)

/-- The rounds that the keys stand for undone, the last one first. -/
def decryptRounds : List Block → Block → Block
  | [], s => s
  | [key], s => (s.xor key).unshiftRows.map unsubstitute
  | key :: next :: keys, s =>
    ((decryptRounds (next :: keys) s).xor key).unmixColumns.unshiftRows.map unsubstitute

/-- One block encrypted. -/
def Schedule.encrypt (schedule : Schedule) (block : Block) : Block :=
  encryptRounds schedule.rounds (block.xor schedule.whitening)

/-- One block decrypted. -/
def Schedule.decrypt (schedule : Schedule) (block : Block) : Block :=
  (decryptRounds schedule.rounds block).xor schedule.whitening

end MediaSeal.Aes
