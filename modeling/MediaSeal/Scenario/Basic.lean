import MediaSeal.Cipher.Algorithm
import MediaSeal.Frame.Basic
import MediaSeal.Key.Store
import MediaSeal.Text.Quoted

/-!
# Scenarios

All that determines a simulated call: who takes part, which cipher and which
keys they use, and how many frames of what size are sent. A scenario can be
written down with any values; whether a call can be set up from it is a
question of its own.
-/

namespace MediaSeal

/-- A simulated call. -/
structure Scenario where
  participant : String
  /-- The cipher's name. -/
  algorithm : String
  /-- The name of the kind of media. -/
  media : String
  /-- Whether each side uses one ring for all participants. -/
  sharedKey : Bool
  salt : String
  /-- How many generations ahead the receiver searches. -/
  window : UInt32
  /-- Exempts a frame from encryption. -/
  marker : String
  ringSize : Nat
  /-- How many failures in a row a ring tolerates. -/
  tolerance : Option UInt32
  /-- The first key. -/
  key : String
  keyIndex : Int
  frames : UInt32
  frameSize : Nat
  /-- Every so manieth frame is a key frame; none is if zero. -/
  keyFrameInterval : UInt32
  /-- The sender advances its key after so many frames; never if zero. -/
  ratchetEvery : UInt32
  /-- How many send at once. What they send and what becomes of it does not
  depend on their number, as long as there is a buffer for all their handles. -/
  workers : Nat
  /-- Determines all payloads and all initialisation vectors. -/
  seed : UInt64
deriving DecidableEq, Repr

/-- What rules a scenario out, apart from names that mean nothing. -/
inductive ScenarioFault
  | emptyParticipant
  | emptyKey
  | noWorkers
deriving DecidableEq, Repr

/-- The reason in words. -/
def ScenarioFault.text : ScenarioFault → String
  | emptyParticipant => "participant must not be empty"
  | emptyKey => "key must not be empty"
  | noWorkers => "workers must be at least 1"

/-- Why there is no scenario to run. -/
inductive ScenarioError
  /-- There is no such file, or it is not text. -/
  | unreadable
  /-- The text does not describe a scenario. -/
  | notUnderstood
  | algorithm (cause : CipherError)
  | media (name : String)
  | invalid (fault : ScenarioFault)
deriving DecidableEq, Repr

/-- The reason in words. -/
def ScenarioError.message : ScenarioError → String
  | unreadable => "failed to read the scenario"
  | notUnderstood => "invalid scenario"
  | algorithm cause => s!"invalid algorithm: {cause.message}"
  | media name =>
    s!"unknown media kind {Quoted.encode name} (expected \"audio\" or \"video\")"
  | invalid fault => s!"invalid scenario: {fault.text}"

namespace Scenario

/-- What holds where a scenario says nothing else. -/
def default : Scenario :=
  { participant := "remote"
    algorithm := Algorithm.default.name
    media := "video"
    sharedKey := false
    salt := "LKFrameEncryptionKey"
    window := 16
    marker := "LK-ROCKS"
    ringSize := 16
    tolerance := none
    key := "initial-key"
    keyIndex := 0
    frames := 200
    frameSize := 256
    keyFrameInterval := 30
    ratchetEvery := 50
    workers := 4
    seed := 0 }

/-- The cipher that the scenario names. -/
def cipher (scenario : Scenario) : Except ScenarioError Algorithm :=
  match Algorithm.ofName scenario.algorithm with
  | .ok algorithm => .ok algorithm
  | .error cause => .error (.algorithm cause)

/-- The kind of media that the scenario names. -/
def mediaKind (scenario : Scenario) : Except ScenarioError MediaKind :=
  match MediaKind.ofName? scenario.media with
  | some kind => .ok kind
  | none => .error (.media scenario.media)

/-- The first thing that rules the scenario out, names aside. -/
def fault? (scenario : Scenario) : Option ScenarioFault :=
  if scenario.participant.isEmpty then some .emptyParticipant
  else if scenario.key.isEmpty then some .emptyKey
  else if scenario.workers = 0 then some .noWorkers
  else none

/-- Whether the scenario makes sense as far as can be seen without setting up
key stores. -/
def validate (scenario : Scenario) : Except ScenarioError Unit := do
  let _ ← scenario.cipher
  let _ ← scenario.mediaKind
  match scenario.fault? with
  | some fault => .error (.invalid fault)
  | none => return ()

/-- How both key stores are set up. -/
def keyOptions (scenario : Scenario) : KeyOptions :=
  { shared := scenario.sharedKey
    salt := Bytes.ofText scenario.salt
    window := scenario.window
    marker := Bytes.ofText scenario.marker
    ringSize := scenario.ringSize
    tolerance := scenario.tolerance }

end Scenario

end MediaSeal
