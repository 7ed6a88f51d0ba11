import MediaSeal.Endpoint
import MediaSeal.MediaPath
import MediaSeal.Session.Observer
import MediaSeal.Session.Registry

/-!
# Sessions

Everything that is alive at once and shared: key stores that several endpoints
use, paths that several endpoints were attached to in turn, sources that
several draw from, observers that hear of several and act on them. A session
is a value; each operation returns the session after it. Things are referred
to by place, so that a thing outlives its name.
-/

namespace MediaSeal

/-- What frames on a path go through. -/
inductive Hook
  | endpoint (ref : Ref .endpoint)
  /-- One that does not belong to an endpoint. -/
  | foreign (ref : Ref .hook)
deriving DecidableEq, Repr

/-- An endpoint with what it was set up with. -/
structure Station where
  endpoint : Endpoint (Ref .observer)
  store : Ref .store
  entropy : Ref .entropy
  path : Ref .path

/-- Where the ring is that a handle gives access to. -/
inductive RingPlace
  /-- On its own, in no store. -/
  | loose (ref : Ref .ring)
  /-- The shared ring of a store. -/
  | shared (store : Ref .store)
  /-- A participant's ring in a store. -/
  | member (store : Ref .store) (participant : Participant)
deriving DecidableEq

/-- All that is alive. -/
structure Session where
  entropies : Registry .entropy Entropy
  stores : Registry .store KeyStore
  /-- Rings that are in no store. -/
  rings : Registry .ring KeyRing
  handles : Registry .handle RingPlace
  hooks : Registry .hook (Frame → Option Frame)
  paths : Registry .path (MediaPath Hook)
  stations : Registry .endpoint Station
  observers : Registry .observer Observer

namespace Session

/-- A session in which nothing is alive yet. -/
def empty : Session :=
  ⟨.empty, .empty, .empty, .empty, .empty, .empty, .empty, .empty⟩

/-- The endpoint at a place. -/
def endpoint? (session : Session) (ref : Ref .endpoint) : Option (Endpoint (Ref .observer)) :=
  (session.stations.get? ref).map (·.endpoint)

/-- An endpoint changed in place. -/
def modifyEndpoint (session : Session) (ref : Ref .endpoint)
    (change : Endpoint (Ref .observer) → Endpoint (Ref .observer)) : Session :=
  { session with
    stations := session.stations.modify ref fun station =>
      { station with endpoint := change station.endpoint } }

/-- A path changed in place. -/
def modifyPath (session : Session) (ref : Ref .path)
    (change : MediaPath Hook → MediaPath Hook) : Session :=
  { session with paths := session.paths.modify ref change }

/-! ## Setting up and giving up endpoints -/

/-- An endpoint given up: it comes off its path, if it is still attached, and
reports to nobody any more. -/
def giveUp (session : Session) (ref : Ref .endpoint) : Session :=
  match session.stations.get? ref with
  | none => session
  | some station =>
    (session.modifyPath station.path (·.detach (.endpoint ref))).modifyEndpoint ref (·.giveUp)

/-- A new endpoint on a path, for frames of the path's kind; the path takes it
over whatever was attached. -/
def setUp (session : Session) (participant : Participant) (direction : Direction)
    (algorithm : Algorithm) (store : Ref .store) (entropy : Ref .entropy) (path : Ref .path) :
    Except EndpointError (Ref .endpoint × Session) := do
  let media := ((session.paths.get? path).map (·.kind)).getD .audio
  let endpoint ← Endpoint.new participant direction algorithm media
  let ref := session.stations.next
  let session :=
    { session with stations := session.stations.add { endpoint, store, entropy, path } }
  return (ref, session.modifyPath path (·.attach (.endpoint ref)))

/-- A new endpoint under a name. One that went by the name before is given up
once the new one is attached. -/
def setUpNamed (session : Session) (name : String) (participant : Participant)
    (direction : Direction) (algorithm : Algorithm) (store : Ref .store) (entropy : Ref .entropy)
    (path : Ref .path) : Except EndpointError Session := do
  let older := session.stations.find? name
  let (ref, session) ← session.setUp participant direction algorithm store entropy path
  let session := { session with stations := session.stations.assign name ref }
  return match older with
    | some older => session.giveUp older
    | none => session

/-! ## Controls -/

/-- Carry out a control; one that names nothing has no effect. -/
def control (session : Session) (control : Control) : Session :=
  match control with
  | .setEnabled endpoint value => change endpoint fun e => { e with enabled := value }
  | .setKeyIndex endpoint index => change endpoint fun e => { e with keyIndex := index }
  | .observe endpoint observer =>
    match session.observers.find? observer with
    | some ref => change endpoint fun e => { e with observer := some ref }
    | none => session
  | .unobserve endpoint => change endpoint fun e => { e with observer := none }
  | .drop endpoint =>
    match session.stations.find? endpoint with
    | some ref =>
      let session := session.giveUp ref
      { session with stations := session.stations.forget endpoint }
    | none => session
where
  /-- The endpoint of a name changed. -/
  change (name : String) (f : Endpoint (Ref .observer) → Endpoint (Ref .observer)) : Session :=
    match session.stations.find? name with
    | some ref => session.modifyEndpoint ref f
    | none => session

end Session

end MediaSeal
