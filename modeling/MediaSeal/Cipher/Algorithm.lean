import MediaSeal.Cipher.Cbc
import MediaSeal.Cipher.Gcm
import MediaSeal.Text.Hex

/-!
# The choice of cipher

Each endpoint is set up with one of two ciphers, and each sealed frame names
the one it was sealed with in a single byte, so that a receiver set up for the
other notices. Both are used the same way: a vector of a fixed length, some
associated data, and a byte string to seal or unseal.
-/

namespace MediaSeal

/-- The ciphers that frames can be sealed with. -/
inductive Algorithm
  | aesGcm
  | aesCbc
deriving DecidableEq, Repr

namespace Algorithm

/-- The cipher used where none is chosen. -/
def default : Algorithm := aesGcm

/-- The byte that names the cipher in a sealed frame. -/
def tag : Algorithm → UInt8
  | aesGcm => 1
  | aesCbc => 2

/-- The cipher that a byte names. -/
def ofTag? (tag : UInt8) : Option Algorithm :=
  if tag = 1 then some aesGcm else if tag = 2 then some aesCbc else none

/-- The cipher that a byte names, or the complaint that it names none. -/
def ofTag (tag : UInt8) : Except CipherError Algorithm :=
  match ofTag? tag with
  | some algorithm => .ok algorithm
  | none => .error (.unsupportedAlgorithm s!"tag 0x{Hex.ofByte tag}")

/-- The cipher's name. -/
def name : Algorithm → String
  | aesGcm => "aes-gcm"
  | aesCbc => "aes-cbc"

/-- The cipher of a name; there are three spellings of each, and the case of
ASCII letters does not matter. -/
def ofName (name : String) : Except CipherError Algorithm :=
  match name.toLower with
  | "aes-gcm" | "aesgcm" | "gcm" => .ok aesGcm
  | "aes-cbc" | "aescbc" | "cbc" => .ok aesCbc
  | _ => .error (.unsupportedAlgorithm name)

/-- The length of an initialisation vector. -/
def ivLength : Algorithm → Nat
  | aesGcm => Gcm.ivLength
  | aesCbc => Cbc.ivLength

/-- A plaintext encrypted and authenticated together with associated data. -/
def encrypt : Algorithm → (key : FrameKey) → (iv aad plaintext : Bytes) → Except CipherError Bytes
  | aesGcm => Gcm.encrypt
  | aesCbc => Cbc.encrypt

/-- The plaintext of what was sealed under the same key, vector and data. -/
def decrypt : Algorithm → (key : FrameKey) → (iv aad ciphertext : Bytes) → Except CipherError Bytes
  | aesGcm => Gcm.decrypt
  | aesCbc => Cbc.decrypt

theorem ofTag?_tag (algorithm : Algorithm) : ofTag? algorithm.tag = some algorithm := by
  cases algorithm <;> rfl

theorem tag_of_ofTag? {tag : UInt8} {algorithm : Algorithm} (h : ofTag? tag = some algorithm) :
    algorithm.tag = tag := by
  unfold ofTag? at h
  split at h
  · next one => simp at h; subst h one; rfl
  · split at h
    · next two => simp at h; subst h two; rfl
    · simp at h

end Algorithm

end MediaSeal
