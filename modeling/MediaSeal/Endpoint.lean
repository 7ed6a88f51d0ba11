import MediaSeal.Protection.Decrypt
import MediaSeal.Protection.Encrypt
import MediaSeal.Text.Quoted

/-!
# Endpoints

An endpoint encrypts the frames of an outgoing path or decrypts those of an
incoming one, for one participant. It can be switched off, and then lets every
frame through unchanged. It remembers the last outcome, so that its observer
hears only of changes.

An attempt at a frame is a pure function of the endpoint, the key store and
the source of randomness; its result lists the changes that are to be
reported. Reporting them is left to whoever holds the endpoint, since an
observer may do things to the endpoint while it listens.
-/

namespace MediaSeal

/-- Which way the frames of an endpoint go. -/
inductive Direction
  /-- Outgoing: the endpoint encrypts. -/
  | sender
  /-- Incoming: the endpoint decrypts. -/
  | receiver
deriving DecidableEq, Repr

/-- The direction in words. -/
def Direction.text : Direction → String
  | sender => "sender"
  | receiver => "receiver"

/-- The names of directions, kinds and ciphers in an endpoint's description. -/
def Direction.label : Direction → String
  | sender => "Sender"
  | receiver => "Receiver"

@[inherit_doc Direction.label]
def MediaKind.label : MediaKind → String
  | audio => "Audio"
  | video => "Video"

@[inherit_doc Direction.label]
def Algorithm.label : Algorithm → String
  | aesGcm => "AesGcm"
  | aesCbc => "AesCbc"

/-- Why an endpoint cannot be set up. -/
inductive EndpointError
  /-- An endpoint belongs to somebody. -/
  | emptyParticipant
deriving DecidableEq, Repr

/-- The reason in words. -/
def EndpointError.message : EndpointError → String
  | emptyParticipant => "participant identity must not be empty"

/-- One end of a protected path; observers are told apart by their `Name`. -/
structure Endpoint (Name : Type) where
  participant : Participant
  direction : Direction
  algorithm : Algorithm
  media : MediaKind
  enabled : Bool
  /-- The key that a sender seals under; a receiver goes by the frame. -/
  keyIndex : Int
  /-- Who hears of changes. -/
  observer : Option Name
  lastOutcome : Option Outcome
  /-- Whether it was given up by its owner. -/
  detached : Bool
deriving DecidableEq

/-- What became of a frame, and all that has changed with it. -/
structure Attempt (Name : Type) where
  endpoint : Endpoint Name
  store : KeyStore
  entropy : Entropy
  /-- The frame that leaves, unless it was dropped. -/
  output : Option Frame
  /-- Outcomes to be reported, in order. -/
  transitions : List Outcome

namespace Endpoint

variable {Name : Type}

/-- A new endpoint is switched off and unobserved. -/
def new (participant : Participant) (direction : Direction) (algorithm : Algorithm)
    (media : MediaKind) : Except EndpointError (Endpoint Name) :=
  if participant.isEmpty then .error .emptyParticipant
  else .ok
    { participant, direction, algorithm, media
      enabled := false
      keyIndex := 0
      observer := none
      lastOutcome := none
      detached := false }

/-- The outcomes that one frame adds to an endpoint's history. -/
def history : Except FrameError Opened → List Outcome
  | .ok opened => if 0 < opened.steps then [.keyRatcheted, .ok] else [.ok]
  | .error error => [error.outcome]

/-- A frame encrypted or decrypted, with what is left of the key store and of
the source. -/
def process (endpoint : Endpoint Name) (store : KeyStore) (entropy : Entropy) (frame : Frame) :
    Except FrameError Opened × KeyStore × Entropy :=
  match endpoint.direction with
  | .sender =>
    let (result, entropy) := frame.encrypt store endpoint.participant endpoint.algorithm
      endpoint.keyIndex entropy
    (result.map (⟨·, 0⟩), store, entropy)
  | .receiver =>
    let (result, store) := store.decrypt endpoint.participant endpoint.algorithm frame.payload
    (result, store, entropy)

/-- What an endpoint does with a frame. -/
def attempt (endpoint : Endpoint Name) (store : KeyStore) (entropy : Entropy) (frame : Frame) :
    Attempt Name :=
  if endpoint.enabled then
    let (result, store, entropy) := endpoint.process store entropy frame
    let history := history result
    { endpoint := { endpoint with lastOutcome := Outcome.latest endpoint.lastOutcome history }
      store, entropy
      output := result.toOption.map fun opened => frame.withPayload opened.payload
      transitions := Outcome.transitions endpoint.lastOutcome history }
  else { endpoint, store, entropy, output := some frame, transitions := [] }

/-- Whether a report may still go to an observer that was there when the
attempt was made. -/
def reportsTo [DecidableEq Name] (endpoint : Endpoint Name) (observer : Name) : Bool :=
  !endpoint.detached && decide (endpoint.observer = some observer)

/-- The endpoint once its owner has given it up: it may still process frames,
but reports to nobody. -/
def giveUp (endpoint : Endpoint Name) : Endpoint Name :=
  { endpoint with observer := none, detached := true }

/-- The endpoint in words, for logs. -/
def describe (endpoint : Endpoint Name) : String :=
  let last := match endpoint.lastOutcome with
    | none => "None"
    | some outcome => s!"Some({outcome.label})"
  s!"FrameCryptor \x7b participant: ParticipantId({Quoted.encode endpoint.participant.name}), " ++
    s!"direction: {endpoint.direction.label}, algorithm: {endpoint.algorithm.label}, " ++
    s!"media_kind: {endpoint.media.label}, enabled: {endpoint.enabled}, " ++
    s!"key_index: {endpoint.keyIndex}, last_state: {last}, .. \x7d"

end Endpoint

end MediaSeal
