import MediaSeal.Bytes
import MediaSeal.Outcome

/-!
# Snapshots of a call

What can be seen of a call from outside, at one moment.
-/

namespace MediaSeal

/-- What became of one frame. -/
structure FrameRecord where
  plaintext : Bytes
  /-- Whether the sender was to encrypt it. -/
  encrypted : Bool
  /-- What left the sender, unless the frame was dropped. -/
  wire : Option Bytes
  /-- What left the receiver, unless the frame was dropped. -/
  delivered : Option Bytes
deriving DecidableEq, Repr

/-- All frames and reports of a call so far. -/
structure Snapshot where
  marker : Bytes
  frames : List FrameRecord
  senderOutcomes : List Outcome
  receiverOutcomes : List Outcome
  /-- The generation of the receiver's key after each frame since the key was
  last provided. -/
  receiverGenerations : List UInt32
deriving DecidableEq, Repr

/-- A call in which nothing has happened. -/
def Snapshot.empty : Snapshot := ⟨[], [], [], [], []⟩

end MediaSeal
