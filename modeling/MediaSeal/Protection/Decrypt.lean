import MediaSeal.Frame.Marker
import MediaSeal.Key.Store
import MediaSeal.Protection.Encrypt
import MediaSeal.Protection.Error

/-!
# Decrypting a frame

The frame says which key index it was sealed under, but not which generation.
The receiver tries the generation it has, and then the ones after it, as far
as its window reaches; the first under which the frame opens is the right one,
and the receiver keeps it. If none opens the frame, nothing is kept but the
count of failures.
-/

namespace MediaSeal

/-- A decrypted payload, and how many generations the key was behind. -/
structure Opened where
  payload : Bytes
  steps : Nat
deriving DecidableEq, Repr

/-- A key that opens a frame, found by searching forward. -/
structure FoundKey where
  key : KeyMaterial
  opened : Opened
deriving DecidableEq

namespace SealedFrame

/-- The payload, if the frame opens under this key. -/
def openWith? (frame : SealedFrame) (key : KeyMaterial) : Option Bytes :=
  match frame.trailer.algorithm.decrypt key.frameKey frame.iv frame.aad frame.ciphertext with
  | .ok body => some (frame.header ++ body)
  | .error _ => none

/-- The first generation that opens the frame, from `key`, which is already
`steps` ahead, to at most `window` generations after it. -/
def findKey? (frame : SealedFrame) (salt : Bytes) :
    (window : Nat) → (steps : Nat) → (key : KeyMaterial) → Option FoundKey
  | window, steps, key =>
    match frame.openWith? key with
    | some payload => some ⟨key, ⟨payload, steps⟩⟩
    | none =>
      match window with
      | 0 => none
      | window + 1 =>
        match key.ratchet salt with
        | .error _ => none
        | .ok next => frame.findKey? salt window (steps + 1) next

end SealedFrame

namespace KeyRing

/-- A sealed frame decrypted under the key at its index, and the ring after
it; `base` is the key that the index names. -/
def openSealed (ring : KeyRing) (window : UInt32) (frame : SealedFrame) (base : KeyMaterial) :
    Except FrameError Opened × KeyRing :=
  let index := frame.trailer.keyIndex
  match frame.findKey? ring.salt window.toNat 0 base with
  | some found =>
    let ring := (ring.commit index.toNat base found.key).2
    (.ok found.opened, ring.recordSuccess)
  | none => (.error (.decryptionFailed index (countUp window)), ring.recordFailure.2)

end KeyRing

namespace KeyStore

/-- A payload decrypted for a participant, and the store after it. -/
def decrypt (store : KeyStore) (participant : Participant) (algorithm : Algorithm)
    (payload : Bytes) : Except FrameError Opened × KeyStore :=
  if payload.isEmpty then (.ok ⟨payload, 0⟩, store)
  else match Marker.strip? store.options.marker payload with
  | some clear => (.ok ⟨clear, 0⟩, store)
  | none =>
    match SealedFrame.parse payload with
    | .error cause => (.error (.malformed cause), store)
    | .ok frame =>
      let received := frame.trailer.algorithm
      let index : Int := frame.trailer.keyIndex.toNat
      if received ≠ algorithm then (.error (.algorithmMismatch algorithm received), store)
      else match store.keySlot index with
      | .error error => (.error error, store)
      | .ok _ =>
        match store.ring? participant with
        | none => (.error (.missingKey index), store)
        | some ring =>
          match ring.key? index with
          | none => (.error (.missingKey index), store)
          | some base =>
            if ring.invalidated then (.error (.keyInvalidated frame.trailer.keyIndex), store)
            else
              let (result, ring) := ring.openSealed store.options.window frame base
              (result, store.withRing participant ring)

end KeyStore

end MediaSeal
