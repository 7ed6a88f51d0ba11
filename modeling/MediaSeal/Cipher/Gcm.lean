import MediaSeal.Aes.Cipher
import MediaSeal.Cipher.Error
import MediaSeal.Cipher.FrameKey
import MediaSeal.Cipher.Ghash

/-!
# AES-128 in Galois counter mode

The plaintext is combined with a key stream of encrypted counters; the tag,
sixteen bytes at the end of the ciphertext, covers the ciphertext and the
associated data. The stream for opening is the stream for sealing, so opening
what was sealed takes no inverse of the block cipher.
-/

namespace MediaSeal.Gcm

/-- The length of an initialisation vector. -/
def ivLength : Nat := 12

/-- The length of the tag. -/
def tagLength : Nat := 16

/-- The most bytes of plaintext, and of associated data, that one nonce may
cover, 2³⁶. -/
def maxLength : Nat := 0x1000000000

/-- The vector followed by a counter. -/
def counterBlock (iv : Bytes) (counter : UInt32) : Aes.Block :=
  Aes.Block.ofBytes (iv ++ Word32.bigEndian counter)

/-- `count` blocks of key stream. The first counter is kept for the tag. -/
def keyStream (schedule : Aes.Schedule) (iv : Bytes) (count : Nat) : Bytes :=
  Aes.Block.listToBytes <| (List.range count).map fun i =>
    schedule.encrypt (counterBlock iv (UInt32.ofNat (i + 2)))

/-- A byte string combined with the key stream, either way. -/
def applyStream (schedule : Aes.Schedule) (iv bytes : Bytes) : Bytes :=
  Bytes.xor bytes (keyStream schedule iv ((bytes.length + 15) / 16))

/-- The lengths in bits of the associated data and of the ciphertext. -/
def lengthBlock (aad body : Bytes) : Aes.Block :=
  Aes.Block.ofBytes (Word64.bigEndian (UInt64.ofNat (8 * aad.length)) ++
    Word64.bigEndian (UInt64.ofNat (8 * body.length)))

/-- The tag over associated data and ciphertext. -/
def tag (schedule : Aes.Schedule) (iv aad body : Bytes) : Bytes :=
  let key := Ghash.Element.ofBlock (schedule.encrypt (Aes.Block.ofBytes []))
  let blocks := Aes.Block.listOfBytes aad ++ Aes.Block.listOfBytes body ++ [lengthBlock aad body]
  let mask := schedule.encrypt (counterBlock iv 1)
  ((Ghash.hash key blocks).toBlock.xor mask).toBytes

/-- Ciphertext and tag of a plaintext. -/
def encrypt (key : FrameKey) (iv aad plaintext : Bytes) : Except CipherError Bytes :=
  if iv.length ≠ ivLength then
    .error (.ivLength ivLength iv.length)
  else if maxLength < plaintext.length ∨ maxLength < aad.length then
    .error (.encryptionFailed .inputTooLong)
  else
    let schedule := Aes.Schedule.ofKey key.block
    let body := applyStream schedule iv plaintext
    .ok (body ++ tag schedule iv aad body)

/-- The plaintext of a ciphertext whose tag is right. -/
def decrypt (key : FrameKey) (iv aad ciphertext : Bytes) : Except CipherError Bytes :=
  if iv.length ≠ ivLength then
    .error (.ivLength ivLength iv.length)
  else if ciphertext.length < tagLength then
    .error (.decryptionFailed .shorterThanTag)
  else
    let schedule := Aes.Schedule.ofKey key.block
    let body := ciphertext.take (ciphertext.length - tagLength)
    let received := ciphertext.drop (ciphertext.length - tagLength)
    if maxLength + tagLength < body.length ∨ maxLength < aad.length ∨
        received ≠ tag schedule iv aad body then
      .error (.decryptionFailed .unauthentic)
    else
      .ok (applyStream schedule iv body)

@[simp] theorem length_tag (schedule : Aes.Schedule) (iv aad body : Bytes) :
    (tag schedule iv aad body).length = 16 := by
  simp [tag]

theorem length_keyStream (schedule : Aes.Schedule) (iv : Bytes) (count : Nat) :
    (keyStream schedule iv count).length = 16 * count := by
  simp [keyStream]

@[simp] theorem length_applyStream (schedule : Aes.Schedule) (iv bytes : Bytes) :
    (applyStream schedule iv bytes).length = bytes.length := by
  rw [applyStream, Bytes.length_xor, length_keyStream]
  omega

/-- Applying the stream twice changes nothing. -/
theorem applyStream_applyStream (schedule : Aes.Schedule) (iv bytes : Bytes) :
    applyStream schedule iv (applyStream schedule iv bytes) = bytes := by
  rw [applyStream, length_applyStream]
  refine Bytes.xor_xor ?_
  rw [length_keyStream]
  omega

end MediaSeal.Gcm
