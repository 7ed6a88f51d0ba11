import MediaSeal.Call.Audit
import MediaSeal.Call.Basic

/-!
# Simulated calls

A scenario is played in rounds: all frames of a round are sent, and between
two rounds the sender advances its key. What each frame holds depends on the
seed and the frame's number alone, so the order within a round makes no
difference to what is sent; `play` takes the rounds as they come, and
`simulate` plays them in order.

A round keeps a handle for each worker, and a frame its payload, and no scenario
is refused for the size of these. `play` has all the room it asks for. `run`
breaks off where one of them is larger than any buffer can be; that there is
memory for what is not larger is taken for granted here too.
-/

namespace MediaSeal

/-- What came of a simulated call. -/
structure Report where
  sent : Nat
  delivered : Nat
  droppedAtSender : Nat
  droppedAtReceiver : Nat
  /-- How often the sender advanced its key. -/
  ratchets : Nat
  /-- The generation of the receiver's key in the end. -/
  receiverGeneration : Option UInt32
  senderOutcomes : List Outcome
  receiverOutcomes : List Outcome
  violations : List Violation

/-- Whether every frame was delivered and nothing was found amiss. -/
def Report.isClean (report : Report) : Bool :=
  report.violations.isEmpty && report.delivered == report.sent

/-- What a frame of a run holds. -/
def framePayload (seed : UInt64) (number : UInt32) (size : Nat) : Bytes :=
  ((KeyStream.ofSeed (seed ^^^ ((number.toUInt64 <<< 32) ||| 0x5eed))).draw size).1

/-- Rounds that were sent. -/
structure Played where
  /-- The fates of all frames, in the order in which they were sent. -/
  deliveries : List Delivery
  /-- How often the sender's key was advanced. -/
  ratchets : Nat
  /-- The call afterwards. -/
  call : Call

/-- How many bytes a buffer can have at most. -/
def maxBuffer : Nat := 0x7fffffffffffffff

/-- How many bytes the handle of a worker has. -/
def handleSize : Nat := 24

/-- Why a call is not played to its end. -/
inductive RunError
  | call (cause : CallError)
  /-- A buffer would have to be larger than buffers can be. -/
  | noRoom
deriving DecidableEq, Repr

/-- The reason in words. -/
def RunError.message : RunError → String
  | call cause => cause.message
  | noRoom => "capacity overflow"

namespace Scenario

/-- How many frames a full round has. -/
def roundLength (scenario : Scenario) : Nat :=
  max 1 (if scenario.ratchetEvery = 0 then scenario.frames else scenario.ratchetEvery).toNat

/-- The numbers of the frames of each round, in order. -/
def rounds (scenario : Scenario) : List (List Nat) :=
  let frames := scenario.frames.toNat
  let length := scenario.roundLength
  (List.range ((frames + length - 1) / length)).map fun round =>
    List.range' (round * length) (min length (frames - round * length))

/-- Whether a frame is a key frame. -/
def isKeyFrame (scenario : Scenario) (number : Nat) : Bool :=
  decide (0 < scenario.keyFrameInterval.toNat ∧ number % scenario.keyFrameInterval.toNat = 0)

/-- The frame of a number sent through a call. -/
def sendFrame (scenario : Scenario) (call : Call) (number : Nat) : Delivery × Call :=
  call.send (framePayload scenario.seed (UInt32.ofNat number) scenario.frameSize)
    (scenario.isKeyFrame number)

/-- The frames of a round sent through a call. -/
def sendRound (scenario : Scenario) : Call → List Nat → List Delivery × Call
  | call, [] => ([], call)
  | call, number :: rest =>
    let (delivery, call) := scenario.sendFrame call number
    let (deliveries, call) := scenario.sendRound call rest
    (delivery :: deliveries, call)

/-- The rounds sent through a call, with the sender's key advanced between
them. -/
def sendRounds (scenario : Scenario) (call : Call) : List (List Nat) → Except KeyError Played
  | [] => .ok ⟨[], 0, call⟩
  | [round] =>
    let (deliveries, call) := scenario.sendRound call round
    .ok ⟨deliveries, 0, call⟩
  | round :: next :: rest => do
    let (deliveries, call) := scenario.sendRound call round
    let later ← scenario.sendRounds (← call.ratchetSender) (next :: rest)
    return ⟨deliveries ++ later.deliveries, later.ratchets + 1, later.call⟩

/-- The call of a scenario with the rounds given, if there is room for everything. -/
def play (scenario : Scenario) (rounds : List (List Nat)) : Except CallError Report := do
  let played ← (scenario.sendRounds (← Call.start scenario) rounds).mapError .key
  let snapshot := played.call.snapshot
  return {
    sent := played.deliveries.length
    delivered := played.deliveries.countP (·.isDelivered)
    droppedAtSender := played.deliveries.count .droppedAtSender
    droppedAtReceiver := played.deliveries.count .droppedAtReceiver
    ratchets := played.ratchets
    receiverGeneration := snapshot.receiverGenerations.getLast?
    senderOutcomes := snapshot.senderOutcomes
    receiverOutcomes := snapshot.receiverOutcomes
    violations := Audit.standard.violations snapshot }

/-- The call of a scenario, if there is room for everything. -/
def simulate (scenario : Scenario) : Except CallError Report := scenario.play scenario.rounds

/-- Whether buffers can hold what these rounds ask for, which is nothing if no frame is
sent. -/
def fits (scenario : Scenario) (rounds : List (List Nat)) : Bool :=
  rounds.all (·.isEmpty) ||
    decide (scenario.workers * handleSize ≤ maxBuffer ∧ scenario.frameSize ≤ maxBuffer)

/-- The call of a scenario with the rounds given, which breaks off where a buffer would be
too large. -/
def run (scenario : Scenario) (rounds : List (List Nat)) : Except RunError Report :=
  match Call.start scenario with
  | .error cause => .error (.call cause)
  | .ok _ =>
    if scenario.fits rounds then (scenario.play rounds).mapError .call else .error .noRoom

end Scenario

end MediaSeal
