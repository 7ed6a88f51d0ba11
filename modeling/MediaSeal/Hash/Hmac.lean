import MediaSeal.Hash.Sha256

/-!
# Keyed hashing and key derivation

HMAC over SHA-256, and the extract-and-expand derivation built on it. A tag
has the same width whatever it is of, and that is all that the rest of the
library needs to know of it.
-/

namespace MediaSeal

namespace Hmac

/-- The key as one hash block: hashed first if longer than a block, then
filled up with zeros. -/
def blockKey (key : Bytes) : Bytes :=
  let short := if key.length > 64 then Sha256.digest key else key
  short ++ Bytes.zeros (64 - short.length)

/-- HMAC-SHA256 of a message. -/
def tag (key message : Bytes) : Bytes :=
  let key := blockKey key
  let inner := Sha256.digest (key.map (· ^^^ 0x36) ++ message)
  Sha256.digest (key.map (· ^^^ 0x5c) ++ inner)

@[simp] theorem length_tag (key message : Bytes) : (tag key message).length = 32 := by
  simp [tag]

end Hmac

namespace Hkdf

/-- The pseudorandom key drawn from salt and input material. -/
def extract (salt material : Bytes) : Bytes := Hmac.tag salt material

/-- The concatenated output blocks `counter, counter + 1, …`, `count` of
them, each chained to the one before. -/
def blocks (key info : Bytes) : Nat → UInt8 → Bytes → Bytes
  | 0, _, _ => []
  | count + 1, counter, previous =>
    let block := Hmac.tag key (previous ++ info ++ [counter])
    block ++ blocks key info count (counter + 1) block

/-- `length` bytes of output for one purpose. -/
def expand (key info : Bytes) (length : Nat) : Bytes :=
  (blocks key info ((length + 31) / 32) 1 []).take length

/-- `length` bytes derived from material under a salt, for the purpose that
`info` names. -/
def derive (salt material info : Bytes) (length : Nat) : Bytes :=
  expand (extract salt material) info length

end Hkdf

end MediaSeal
