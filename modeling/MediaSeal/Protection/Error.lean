import MediaSeal.Frame.Sealed
import MediaSeal.Outcome

/-!
# Why a frame could not be encrypted or decrypted
-/

namespace MediaSeal

/-- A failure to process one frame. -/
inductive FrameError
  /-- The participant has no key at this index. -/
  | missingKey (index : Int)
  /-- No slot of a ring has this index. -/
  | invalidKeyIndex (index : Int) (ringSize : Nat)
  | encryptionFailed (cause : CipherError)
  /-- None of the generations tried was the right one. -/
  | decryptionFailed (index : UInt8) (attempts : UInt32)
  /-- The frame names another cipher than the one it is expected in. -/
  | algorithmMismatch (configured received : Algorithm)
  /-- The ring has seen too many failures to be tried again. -/
  | keyInvalidated (index : UInt8)
  /-- The payload is not a sealed frame. -/
  | malformed (cause : MalformedFrame)
deriving DecidableEq, Repr

namespace FrameError

/-- The failure in words. -/
def message : FrameError → String
  | missingKey index => s!"no key material at index {index}"
  | invalidKeyIndex index ringSize => s!"key index {index} outside key ring of size {ringSize}"
  | encryptionFailed cause => s!"encryption failed: {cause.message}"
  | decryptionFailed index attempts =>
    s!"decryption failed at key index {index} after {attempts} attempts"
  | algorithmMismatch configured received =>
    s!"algorithm mismatch: configured {configured.name}, frame uses {received.name}"
  | keyInvalidated index => s!"key at index {index} invalidated after repeated decryption failures"
  | malformed cause => s!"malformed frame: {cause.message}"

/-- The failure as an application sees it. -/
def outcome : FrameError → Outcome
  | missingKey _ => .missingKey
  | encryptionFailed _ => .encryptionFailed
  | decryptionFailed _ _ | algorithmMismatch _ _ | keyInvalidated _ => .decryptionFailed
  | invalidKeyIndex _ _ | malformed _ => .internalError

end FrameError

end MediaSeal
