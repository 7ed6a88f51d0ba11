import MediaSeal.Key.Participant
import MediaSeal.Outcome

/-!
# Observers

An observer keeps what it hears until it is collected, as long as anybody
collects it. It may also react: on some outcome, or on every one, it controls
endpoints, which it knows by name.
-/

namespace MediaSeal

/-- A reported change. -/
structure Notice where
  participant : Participant
  outcome : Outcome
deriving DecidableEq, Repr

/-- What can be done to an endpoint while it is in use. -/
inductive Control
  | setEnabled (endpoint : String) (value : Bool)
  | setKeyIndex (endpoint : String) (index : Int)
  /-- Let an observer hear of changes, in place of any other. -/
  | observe (endpoint observer : String)
  | unobserve (endpoint : String)
  /-- Give the endpoint up. -/
  | drop (endpoint : String)
deriving DecidableEq, Repr

/-- A control and what triggers it. -/
structure Reaction where
  /-- The outcome that triggers it; every one does if `none`. -/
  trigger : Option Outcome
  control : Control
deriving DecidableEq, Repr

/-- Whether an outcome triggers a reaction. -/
def Reaction.isTriggeredBy (reaction : Reaction) (outcome : Outcome) : Bool :=
  match reaction.trigger with
  | none => true
  | some trigger => trigger == outcome

/-- Somebody who hears of changes. -/
structure Observer where
  /-- Whether reports are kept to be collected. -/
  keeps : Bool
  /-- Reports since the last collection, in order. -/
  heard : List Notice
  reactions : List Reaction

namespace Observer

/-- An observer that has heard nothing yet. -/
def new (reactions : List Reaction) : Observer := ⟨true, [], reactions⟩

/-- A report taken in. -/
def hear (observer : Observer) (notice : Notice) : Observer :=
  if observer.keeps then { observer with heard := observer.heard ++ [notice] } else observer

/-- The observer once its reports were collected. -/
def collected (observer : Observer) : Observer := { observer with heard := [] }

/-- The observer once nobody collects its reports any more. -/
def close (observer : Observer) : Observer := { observer with keeps := false, heard := [] }

/-- What an outcome makes the observer do, in order. -/
def reactionsTo (observer : Observer) (outcome : Outcome) : List Control :=
  (observer.reactions.filter (·.isTriggeredBy outcome)).map (·.control)

end Observer

end MediaSeal
