import MediaSeal.Bytes

/-!
# The marker of clear frames

Some frames are meant to travel unencrypted, and they say so by a marker that
sender and receiver agree on: a payload is exempt from encryption if it is the
marker itself, or ends in the marker followed by one more byte. An empty
marker exempts nothing.
-/

namespace MediaSeal.Marker

/-- What is left of an exempt payload once the marker is taken off; a payload
that is the marker itself is kept. `none` for all other payloads. -/
def strip? (marker payload : Bytes) : Option Bytes :=
  let start := payload.length - (marker.length + 1)
  if marker = [] then none
  else if payload = marker then some payload
  else if payload.length < marker.length + 1 then none
  else if (payload.drop start).take marker.length = marker then some (payload.take start)
  else none

/-- Whether a payload is to be left unencrypted. -/
def exempts (marker payload : Bytes) : Bool := (strip? marker payload).isSome

theorem exempts_eq_false_iff {marker payload : Bytes} :
    exempts marker payload = false ↔ strip? marker payload = none := by
  rw [exempts, Option.isSome_eq_false_iff, Option.isNone_iff_eq_none]

end MediaSeal.Marker
