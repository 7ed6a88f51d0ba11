import MediaSeal.Aes.Block

/-!
# Frame keys

The sixteen bytes that one generation of key material yields for the cipher.
-/

namespace MediaSeal

/-- A cipher key; its width is in its type. -/
structure FrameKey where
  block : Aes.Block
deriving DecidableEq

namespace FrameKey

/-- The key whose bytes these are; zeros stand for missing ones. -/
def ofBytes (bytes : Bytes) : FrameKey := ⟨Aes.Block.ofBytes bytes⟩

/-- The sixteen bytes of the key. -/
def toBytes (key : FrameKey) : Bytes := key.block.toBytes

/-- How a key shows itself where its bytes must not appear. -/
def redacted (_ : FrameKey) : String := "FrameKey([REDACTED])"

end FrameKey

end MediaSeal
