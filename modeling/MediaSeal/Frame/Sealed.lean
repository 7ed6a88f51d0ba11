import MediaSeal.Cipher.Algorithm

/-!
# Sealed frames

What an encrypted payload looks like on the wire:

    header ‖ ciphertext ‖ initialisation vector ‖ trailer

The trailer is the last four bytes: the length of the header, the cipher, the
length of the vector, and the key index. Since it stands at the end, a
receiver reads it first and finds the other parts from it. Header and trailer
are authenticated with the ciphertext.
-/

namespace MediaSeal

/-- The four bytes that end a sealed frame. -/
structure Trailer where
  headerLength : UInt8
  algorithm : Algorithm
  ivLength : UInt8
  keyIndex : UInt8
deriving DecidableEq, Repr

namespace Trailer

/-- How many bytes a trailer takes. -/
def size : Nat := 4

/-- The bytes of the trailer. -/
def toBytes (trailer : Trailer) : Bytes :=
  [trailer.headerLength, trailer.algorithm.tag, trailer.ivLength, trailer.keyIndex]

@[simp] theorem length_toBytes (trailer : Trailer) : trailer.toBytes.length = size := rfl

end Trailer

/-- Why a payload is not a sealed frame. -/
inductive MalformedFrame
  /-- No room for the trailer. -/
  | tooShort (length minimum : Nat)
  /-- No cipher goes by the trailer's tag. -/
  | unknownAlgorithm (tag : UInt8)
  /-- The cipher needs a vector of another length than the trailer gives. -/
  | ivLength (expected actual : Nat)
  /-- No room for the header and the vector that the trailer announces. -/
  | truncated (length headerLength ivLength : Nat)
deriving DecidableEq, Repr

/-- The reason in words. -/
def MalformedFrame.message : MalformedFrame → String
  | tooShort length minimum => s!"frame too short: {length} bytes, need at least {minimum}"
  | unknownAlgorithm tag => s!"unknown algorithm tag 0x{Hex.ofByte tag}"
  | ivLength expected actual =>
    s!"iv length {actual} does not match algorithm (expected {expected})"
  | truncated length header iv =>
    s!"truncated frame: {length} bytes cannot hold header {header} and iv {iv}"

/-- The parts of an encrypted payload. -/
structure SealedFrame where
  header : Bytes
  ciphertext : Bytes
  iv : Bytes
  trailer : Trailer
deriving DecidableEq, Repr

namespace SealedFrame

/-- The parts laid out one after the other. -/
def toBytes (frame : SealedFrame) : Bytes :=
  frame.header ++ frame.ciphertext ++ frame.iv ++ frame.trailer.toBytes

/-- What is authenticated beside the ciphertext. -/
def aad (frame : SealedFrame) : Bytes := frame.header ++ frame.trailer.toBytes

/-- The parts that a payload consists of. -/
def parse (payload : Bytes) : Except MalformedFrame SealedFrame :=
  let room := payload.length - Trailer.size
  match payload.drop room with
  | [headerLength, tag, ivLength, keyIndex] =>
    match Algorithm.ofTag? tag with
    | none => .error (.unknownAlgorithm tag)
    | some algorithm =>
      if ivLength.toNat ≠ algorithm.ivLength then
        .error (.ivLength algorithm.ivLength ivLength.toNat)
      else if room < headerLength.toNat + ivLength.toNat then
        .error (.truncated payload.length headerLength.toNat ivLength.toNat)
      else
        let ivStart := room - ivLength.toNat
        .ok
          { header := payload.take headerLength.toNat
            ciphertext := (payload.take ivStart).drop headerLength.toNat
            iv := (payload.take room).drop ivStart
            trailer := ⟨headerLength, algorithm, ivLength, keyIndex⟩ }
  | _ => .error (.tooShort payload.length Trailer.size)

end SealedFrame

end MediaSeal
