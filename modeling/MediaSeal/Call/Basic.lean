import MediaSeal.Call.Snapshot
import MediaSeal.Endpoint
import MediaSeal.MediaPath
import MediaSeal.Scenario.Basic

/-!
# Calls

A sender and a receiver back to back: what leaves the one path enters the
other. Each side has a key store of its own. Both are given the same keys, but
when the sender advances its key, the receiver is not told and has to find out
from the frames.
-/

namespace MediaSeal

/-- One side of a call; its recorder goes by the side's direction. -/
structure Leg where
  endpoint : Endpoint Direction
  store : KeyStore
  path : MediaPath Direction
  /-- All outcomes reported so far. -/
  heard : List Outcome

/-- Two sides that draw from one source, and a record of what they did. -/
structure Call where
  participant : Participant
  media : MediaKind
  keyIndex : Int
  marker : Bytes
  sender : Leg
  receiver : Leg
  entropy : Entropy
  frames : List FrameRecord
  generations : List UInt32

/-- The fate of a frame sent through a call. -/
inductive Delivery
  | delivered (payload : Bytes)
  | droppedAtSender
  | droppedAtReceiver
deriving DecidableEq, Repr

/-- Whether a frame came through. -/
def Delivery.isDelivered : Delivery → Bool
  | delivered _ => true
  | droppedAtSender | droppedAtReceiver => false

/-- Why a call cannot be set up or run. -/
inductive CallError
  | scenario (cause : ScenarioError)
  | key (cause : KeyError)
  | endpoint (cause : EndpointError)
deriving DecidableEq, Repr

/-- The reason in words. -/
def CallError.message : CallError → String
  | scenario cause => cause.message
  | key cause => s!"key management: {cause.message}"
  | endpoint cause => s!"cryptor: {cause.message}"

/-! ## Legs -/

namespace Leg

/-- A side set up with an empty key store and its recorder registered. -/
def new (options : KeyOptions) (participant : Participant) (direction : Direction)
    (algorithm : Algorithm) (media : MediaKind) : Except CallError Leg := do
  let store ← (KeyStore.new options).mapError .key
  let endpoint : Endpoint Direction ←
    (Endpoint.new participant direction algorithm media).mapError .endpoint
  return {
    endpoint := { endpoint with observer := some direction }
    store
    path := (MediaPath.new media).attach direction
    heard := [] }

/-- The side switched on or off. -/
def setEnabled (leg : Leg) (enabled : Bool) : Leg :=
  { leg with endpoint := { leg.endpoint with enabled } }

/-- The side with another key to seal under. -/
def setKeyIndex (leg : Leg) (keyIndex : Int) : Leg :=
  { leg with endpoint := { leg.endpoint with keyIndex } }

/-- The side with another key store. -/
def withStore (leg : Leg) (store : KeyStore) : Leg := { leg with store }

/-- A frame pushed along the side's path. -/
def push (leg : Leg) (entropy : Entropy) (frame : Frame) : Option Frame × Leg × Entropy :=
  match leg.path.hook with
  | none => (some frame, { leg with path := leg.path.count (some frame) }, entropy)
  | some recorder =>
    let attempt := leg.endpoint.attempt leg.store entropy frame
    let told := if attempt.endpoint.reportsTo recorder then attempt.transitions else []
    (attempt.output,
      { endpoint := attempt.endpoint
        store := attempt.store
        path := leg.path.count attempt.output
        heard := leg.heard ++ told },
      attempt.entropy)

end Leg

/-! ## Calls -/

namespace Call

/-- Give both sides a key, which starts again at generation zero. -/
def provision (call : Call) (raw : Bytes) : Except KeyError Call := do
  let sent ← call.sender.store.setKey call.participant call.keyIndex raw
  let received ← call.receiver.store.setKey call.participant call.keyIndex raw
  return { call with
    sender := call.sender.withStore sent
    receiver := call.receiver.withStore received
    generations := [] }

/-- Advance the sender's key without telling the receiver. -/
def ratchetSender (call : Call) : Except KeyError Call := do
  let (_, store) ← call.sender.store.ratchetKey call.participant call.keyIndex
  return { call with sender := call.sender.withStore store }

/-- A call set up as a scenario asks, with the first key given to both sides
and both sides switched on. -/
def start (scenario : Scenario) : Except CallError Call := do
  scenario.validate.mapError .scenario
  let algorithm ← scenario.cipher.mapError .scenario
  let media ← scenario.mediaKind.mapError .scenario
  let options := scenario.keyOptions
  let participant : Participant := ⟨scenario.participant⟩
  let sender ← Leg.new options participant .sender algorithm media
  let receiver ← Leg.new options participant .receiver algorithm media
  let call : Call :=
    { participant, media
      keyIndex := scenario.keyIndex
      marker := options.marker
      sender := sender.setKeyIndex scenario.keyIndex
      receiver
      entropy := Entropy.ofSeed scenario.seed
      frames := []
      generations := [] }
  let call ← (call.provision (Bytes.ofText scenario.key)).mapError .key
  return { call with
    sender := call.sender.setEnabled true
    receiver := call.receiver.setEnabled true }

/-- A frame of the call's kind. -/
def frame (call : Call) (payload : Bytes) (keyFrame : Bool) : Frame :=
  match call.media with
  | .audio => ⟨.audio, false, payload⟩
  | .video => ⟨.video, keyFrame, payload⟩

/-- The generation of the receiver's key. -/
def receiverGeneration? (call : Call) : Option UInt32 :=
  (call.receiver.store.ring? call.participant).bind (·.generation? call.keyIndex)

/-- Send one payload from end to end. -/
def send (call : Call) (payload : Bytes) (keyFrame : Bool) : Delivery × Call :=
  let encrypted := call.sender.endpoint.enabled
  let (wire, sender, entropy) := call.sender.push call.entropy (call.frame payload keyFrame)
  let (delivered, receiver, entropy) := match wire with
    | none => (none, call.receiver, entropy)
    | some frame => call.receiver.push entropy frame
  let delivery := match wire, delivered with
    | none, _ => Delivery.droppedAtSender
    | some _, none => .droppedAtReceiver
    | some _, some frame => .delivered frame.payload
  let record : FrameRecord :=
    { plaintext := payload, encrypted
      wire := wire.map (·.payload)
      delivered := delivered.map (·.payload) }
  let call := { call with sender, receiver, entropy, frames := call.frames ++ [record] }
  (delivery, { call with generations := call.generations ++ call.receiverGeneration?.toList })

/-- What can be seen of the call. -/
def snapshot (call : Call) : Snapshot :=
  { marker := call.marker
    frames := call.frames
    senderOutcomes := call.sender.heard
    receiverOutcomes := call.receiver.heard
    receiverGenerations := call.generations }

end Call

end MediaSeal
