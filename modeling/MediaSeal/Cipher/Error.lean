/-!
# What can go wrong with a cipher or a key

Each failure is a case of its own and carries the values it is about; the
wording is in one place, `CipherError.message`.
-/

namespace MediaSeal

/-- Why a cipher turned down its input. -/
inductive CipherFault
  /-- More plaintext or more associated data than one nonce may cover. -/
  | inputTooLong
  /-- No room for the authentication tag. -/
  | shorterThanTag
  /-- Not a positive number of whole blocks. -/
  | notBlockAligned
  /-- The authentication tag does not match. -/
  | unauthentic
  /-- The tag matches, but the plaintext does not end in a padding. -/
  | badPadding
deriving DecidableEq, Repr

/-- The reason in words. -/
def CipherFault.text : CipherFault → String
  | inputTooLong => "aes-gcm rejected the input"
  | shorterThanTag => "ciphertext shorter than tag"
  | notBlockAligned => "ciphertext is not block aligned"
  | unauthentic => "authentication failed"
  | badPadding => "invalid padding"

/-- Every reason there is. -/
def CipherFault.all : List CipherFault :=
  [inputTooLong, shorterThanTag, notBlockAligned, unauthentic, badPadding]

/-- A failure of a cipher, of its choice, or of a key's generation count. -/
inductive CipherError
  /-- No algorithm goes by this name. -/
  | unsupportedAlgorithm (name : String)
  /-- The initialisation vector has the wrong length. -/
  | ivLength (expected actual : Nat)
  | encryptionFailed (fault : CipherFault)
  | decryptionFailed (fault : CipherFault)
  /-- The generation counter cannot go beyond `current`. -/
  | generationOverflow (current : UInt32)
deriving DecidableEq, Repr

/-- The failure in words. -/
def CipherError.message : CipherError → String
  | unsupportedAlgorithm name => s!"unsupported algorithm: {name}"
  | ivLength expected actual => s!"invalid iv length: expected {expected}, got {actual}"
  | encryptionFailed fault => s!"encryption failed: {fault.text}"
  | decryptionFailed fault => s!"decryption failed: {fault.text}"
  | generationOverflow current => s!"ratchet generation overflow at {current}"

end MediaSeal
