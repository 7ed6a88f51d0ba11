import MediaSeal.Session.Basic

/-!
# Handles on key rings

A handle gives access to one ring, wherever it is. A participant that is
removed from a store loses its ring, but whoever had a handle on the ring
keeps it: the ring goes on without the store, and a ring that the participant
may get later is another one.
-/

namespace MediaSeal.Session

/-- The ring that a handle gives access to. -/
def ring? (session : Session) (place : RingPlace) : Option KeyRing :=
  match place with
  | .loose ref => session.rings.get? ref
  | .shared store => (session.stores.get? store).map (·.sharedRing)
  | .member store participant =>
    (session.stores.get? store).bind fun store => store.members.find? participant

/-- Another ring in the place of the one that a handle gives access to. -/
def setRing (session : Session) (place : RingPlace) (ring : KeyRing) : Session :=
  match place with
  | .loose ref => { session with rings := session.rings.set ref ring }
  | .shared store =>
    { session with stores := session.stores.modify store ({ · with sharedRing := ring }) }
  | .member store participant =>
    { session with
      stores := session.stores.modify store fun store =>
        { store with members := store.members.put participant ring } }

/-- Where the ring is that a participant of a store uses, if it has one. -/
def ringPlace? (session : Session) (ref : Ref .store) (participant : Participant) :
    Option RingPlace := do
  let store ← session.stores.get? ref
  if store.options.shared then return .shared ref
  let _ ← store.members.find? participant
  return .member ref participant

/-- A ring in no store, under a name. -/
def addRing (session : Session) (name : String) (ring : KeyRing) : Session :=
  { session with
    rings := session.rings.add ring
    handles := session.handles.addNamed name (.loose session.rings.next) }

/-- Take a participant's ring out of a store; whether there was one comes
first. Handles on the ring stay handles on it. -/
def removeParticipant (session : Session) (ref : Ref .store) (participant : Participant) :
    Bool × Session :=
  match session.stores.get? ref with
  | none => (false, session)
  | some store =>
    match store.members.find? participant with
    | none => (false, session)
    | some ring =>
      let place := RingPlace.loose session.rings.next
      (true, { session with
        stores := session.stores.set ref (store.remove participant).2
        rings := session.rings.add ring
        handles := session.handles.map fun old =>
          if old = .member ref participant then place else old })

end MediaSeal.Session
