/-!
# Participants

The identities that keys and endpoints belong to. They are compared and
ordered as texts, character by character by code point, which is also the
order of their UTF-8 bytes.
-/

namespace MediaSeal

/-- An identity in a call. -/
structure Participant where
  name : String
deriving DecidableEq, Repr, Inhabited

namespace Participant

/-- Whether the identity says nothing. -/
def isEmpty (participant : Participant) : Bool := participant.name.isEmpty

/-- The identity in words. -/
def text (participant : Participant) : String := participant.name

/-- The order of identities. -/
def le (left right : Participant) : Bool := decide (left.name ≤ right.name)

/-- Identities in order. -/
def sorted (participants : List Participant) : List Participant := participants.mergeSort le

/-- Identities without repetitions. -/
def distinct (participants : List Participant) : List Participant := participants.eraseDups

end Participant

end MediaSeal
