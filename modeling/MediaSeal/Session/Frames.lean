import MediaSeal.Session.Basic

/-!
# Frames in a session

The order of things within one frame matters to observers. The endpoint's own
state, its key store and its source are settled before anybody is told.
Reports then go out one by one, and before each the endpoint is looked at
again: the observer is left out if it is not the one that is registered at that
moment, or if the endpoint was given up. The frame itself leaves all the same.
-/

namespace MediaSeal

/-- Reports offered in order. Before each, `listening` decides whether it is
made; `tell` is all that happens until the next is due. -/
def offerAll {State : Type} (listening : State → Bool) (tell : State → Outcome → State) :
    State → List Outcome → State
  | state, [] => state
  | state, outcome :: rest =>
    offerAll listening tell (if listening state then tell state outcome else state) rest

namespace Session

/-- An observer hears a notice and reacts to it. -/
def tell (session : Session) (observer : Ref .observer) (notice : Notice) : Session :=
  match session.observers.get? observer with
  | none => session
  | some listener =>
    let session :=
      { session with observers := session.observers.set observer (listener.hear notice) }
    (listener.reactionsTo notice.outcome).foldl control session

/-- Whether an endpoint still reports to an observer. -/
def reportsTo (session : Session) (ref : Ref .endpoint) (observer : Ref .observer) : Bool :=
  match session.endpoint? ref with
  | none => false
  | some endpoint => endpoint.reportsTo observer

/-- The transitions of one attempt reported to the observer that was there
when it was made. -/
def report (session : Session) (ref : Ref .endpoint) (endpoint : Endpoint (Ref .observer))
    (transitions : List Outcome) : Session :=
  match endpoint.observer with
  | none => session
  | some observer =>
    offerAll (reportsTo · ref observer)
      (fun session outcome => session.tell observer ⟨endpoint.participant, outcome⟩)
      session transitions

/-- A frame handed to an endpoint. -/
def transform (session : Session) (ref : Ref .endpoint) (frame : Frame) :
    Option Frame × Session :=
  match session.stations.get? ref with
  | none => (some frame, session)
  | some station =>
    match session.stores.get? station.store, session.entropies.get? station.entropy with
    | some store, some entropy =>
      let attempt := station.endpoint.attempt store entropy frame
      let session := { session with
        stations := session.stations.set ref { station with endpoint := attempt.endpoint }
        stores := session.stores.set station.store attempt.store
        entropies := session.entropies.set station.entropy attempt.entropy }
      (attempt.output, session.report ref attempt.endpoint attempt.transitions)
    | _, _ => (some frame, session)

/-- A frame handed to a hook. -/
def throughHook (session : Session) (hook : Hook) (frame : Frame) : Option Frame × Session :=
  match hook with
  | .endpoint ref => session.transform ref frame
  | .foreign ref =>
    match session.hooks.get? ref with
    | some hook => (hook frame, session)
    | none => (some frame, session)

/-- A frame pushed along a path. -/
def push (session : Session) (ref : Ref .path) (frame : Frame) : Option Frame × Session :=
  let (output, session) := match (session.paths.get? ref).bind (·.hook) with
    | some hook => session.throughHook hook frame
    | none => (some frame, session)
  (output, session.modifyPath ref (·.count output))

end Session

end MediaSeal
