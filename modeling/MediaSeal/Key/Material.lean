import MediaSeal.Cipher.Error
import MediaSeal.Cipher.FrameKey
import MediaSeal.Hash.Hmac

/-!
# Key material and its generations

An application hands over raw bytes. From them and a salt comes the frame key,
and from them comes the material of the next generation, by a step that cannot
be taken back: whoever holds a generation can work out all later ones and none
of the earlier ones. Generations are counted in thirty-two bits and the count
never wraps: the last generation has no successor.
-/

namespace MediaSeal

/-- The frame key of raw material under a salt. -/
def deriveFrameKey (material salt : Bytes) : FrameKey :=
  FrameKey.ofBytes (Hkdf.derive salt material (Bytes.ofText "FrameCryptorKeyV1") 16)

/-- The raw material of the generation after this one. -/
def ratchetMaterial (material salt : Bytes) : Bytes :=
  Hmac.tag material (Bytes.ofText "FrameCryptorRatchetV1" ++ salt)

/-- The last generation there is. -/
def lastGeneration : UInt32 := 0xffffffff

/-- One generation of key material, with its frame key at hand. -/
structure KeyMaterial where
  raw : Bytes
  /-- Steps taken since the application supplied the material. -/
  generation : UInt32
  frameKey : FrameKey
deriving DecidableEq

namespace KeyMaterial

/-- Material that is already `generation` steps from what the application
supplied. -/
def atGeneration (raw salt : Bytes) (generation : UInt32) : KeyMaterial :=
  ⟨raw, generation, deriveFrameKey raw salt⟩

/-- Material as the application supplies it. -/
def supplied (raw salt : Bytes) : KeyMaterial := atGeneration raw salt 0

/-- The next generation. -/
def ratchet (salt : Bytes) (key : KeyMaterial) : Except CipherError KeyMaterial :=
  if key.generation = lastGeneration then
    .error (.generationOverflow key.generation)
  else
    .ok (atGeneration (ratchetMaterial key.raw salt) salt (key.generation + 1))

/-- Whether two hold the same raw bytes, whatever their generations. -/
def sameRaw (key other : KeyMaterial) : Bool := key.raw == other.raw

/-- How material shows itself where its bytes must not appear. -/
def redacted (key : KeyMaterial) : String :=
  s!"KeyMaterial \x7b generation: {key.generation}, material: [REDACTED] {key.raw.length} bytes \x7d"

end KeyMaterial

end MediaSeal
