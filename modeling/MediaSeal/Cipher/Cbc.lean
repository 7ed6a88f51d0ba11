import MediaSeal.Aes.Cipher
import MediaSeal.Cipher.Error
import MediaSeal.Cipher.FrameKey
import MediaSeal.Cipher.Padding
import MediaSeal.Hash.Hmac

/-!
# AES-128 in chaining mode, with a tag

Padding alone cannot tell a wrong key from the right one: one wrong key in
about 256 leaves something that looks padded. So the chained blocks are
followed by a sixteen-byte tag, a keyed hash over the associated data, the
initialisation vector and the blocks, under a key of its own derived from the
frame key. Opening checks the tag before it decrypts anything.
-/

namespace MediaSeal.Cbc

/-- The length of an initialisation vector. -/
def ivLength : Nat := 16

/-- The length of the tag. -/
def tagLength : Nat := 16

/-- The key of the tag. -/
def tagKey (key : FrameKey) : Bytes :=
  Hmac.tag key.toBytes (Bytes.ofText "FrameCryptorCbcMacV1")

/-- Everything that the tag vouches for. -/
def authenticated (iv aad body : Bytes) : Bytes := aad ++ iv ++ body

/-- The tag over associated data, vector and ciphertext. -/
def tag (key : FrameKey) (iv aad body : Bytes) : Bytes :=
  (Hmac.tag (tagKey key) (authenticated iv aad body)).take tagLength

/-- Each block combined with the ciphertext before it, then encrypted. -/
def chain (schedule : Aes.Schedule) : Aes.Block → List Aes.Block → List Aes.Block
  | _, [] => []
  | previous, block :: blocks =>
    let chained := schedule.encrypt (block.xor previous)
    chained :: chain schedule chained blocks

/-- Each block decrypted, then combined with the ciphertext before it. -/
def unchain (schedule : Aes.Schedule) : Aes.Block → List Aes.Block → List Aes.Block
  | _, [] => []
  | previous, block :: blocks =>
    (schedule.decrypt block).xor previous :: unchain schedule block blocks

/-- Chained blocks and tag of a plaintext. -/
def encrypt (key : FrameKey) (iv aad plaintext : Bytes) : Except CipherError Bytes :=
  if iv.length ≠ ivLength then
    .error (.ivLength ivLength iv.length)
  else
    let schedule := Aes.Schedule.ofKey key.block
    let blocks := Aes.Block.listOfBytes (Padding.add plaintext)
    let body := Aes.Block.listToBytes (chain schedule (Aes.Block.ofBytes iv) blocks)
    .ok (body ++ tag key iv aad body)

/-- The plaintext of chained blocks whose tag is right. -/
def decrypt (key : FrameKey) (iv aad ciphertext : Bytes) : Except CipherError Bytes :=
  if iv.length ≠ ivLength then
    .error (.ivLength ivLength iv.length)
  else if ciphertext.length < tagLength then
    .error (.decryptionFailed .shorterThanTag)
  else
    let body := ciphertext.take (ciphertext.length - tagLength)
    let received := ciphertext.drop (ciphertext.length - tagLength)
    if body.length = 0 ∨ body.length % 16 ≠ 0 then
      .error (.decryptionFailed .notBlockAligned)
    else if received ≠ tag key iv aad body then
      .error (.decryptionFailed .unauthentic)
    else
      let schedule := Aes.Schedule.ofKey key.block
      let blocks := unchain schedule (Aes.Block.ofBytes iv) (Aes.Block.listOfBytes body)
      match Padding.strip? (Aes.Block.listToBytes blocks) with
      | some plaintext => .ok plaintext
      | none => .error (.decryptionFailed .badPadding)

@[simp] theorem length_tag (key : FrameKey) (iv aad body : Bytes) :
    (tag key iv aad body).length = 16 := by
  simp [tag, tagLength]

end MediaSeal.Cbc
