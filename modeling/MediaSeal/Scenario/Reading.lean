import MediaSeal.Scenario.Assignments
import MediaSeal.Scenario.Basic

/-!
# Reading scenarios

A scenario file assigns values to settings by name, each at most once, and the
others keep their defaults. A name that is no setting, or a value that a
setting cannot take, makes the whole file unusable.
-/

namespace MediaSeal.Scenario

/-- A number that fits in thirty-two bits. -/
def word32? (n : Int) : Option UInt32 :=
  if 0 ≤ n ∧ n < UInt32.size then some (UInt32.ofNat n.toNat) else none

/-- A number that fits in thirty-two bits, one of them for the sign. -/
def index? (n : Int) : Option Int :=
  if -0x80000000 ≤ n ∧ n < 0x80000000 then some n else none

/-- A number that can count things. -/
def count? (n : Int) : Option Nat := if 0 ≤ n then some n.toNat else none

/-- The scenario with one setting assigned. -/
def assign? (scenario : Scenario) (name : String) (value : Assignments.Setting) :
    Option Scenario :=
  match name, value with
  | "participant", .text participant => some { scenario with participant }
  | "algorithm", .text algorithm => some { scenario with algorithm }
  | "media", .text media => some { scenario with media }
  | "shared_key", .flag sharedKey => some { scenario with sharedKey }
  | "ratchet_salt", .text salt => some { scenario with salt }
  | "ratchet_window_size", .number n => (word32? n).map ({ scenario with window := · })
  | "magic_bytes", .text marker => some { scenario with marker }
  | "key_ring_size", .number n => (count? n).map ({ scenario with ringSize := · })
  | "failure_tolerance", .number n => (word32? n).map ({ scenario with tolerance := some · })
  | "key", .text key => some { scenario with key }
  | "key_index", .number n => (index? n).map ({ scenario with keyIndex := · })
  | "frames", .number n => (word32? n).map ({ scenario with frames := · })
  | "frame_size", .number n => (count? n).map ({ scenario with frameSize := · })
  | "key_frame_interval", .number n => (word32? n).map ({ scenario with keyFrameInterval := · })
  | "ratchet_every", .number n => (word32? n).map ({ scenario with ratchetEvery := · })
  | "workers", .number n => (count? n).map ({ scenario with workers := · })
  | "seed", .number n => (count? n).map ({ scenario with seed := UInt64.ofNat · })
  | _, _ => none

/-- The scenario that the assignments make of another one, if each name occurs
once. -/
def assignAll? (scenario : Scenario) : List (String × Assignments.Setting) → Option Scenario
  | [] => some scenario
  | (name, value) :: rest =>
    if rest.any (·.1 == name) then none
    else (scenario.assign? name value).bind (assignAll? · rest)

/-- The scenario that a text describes. -/
def ofText (text : String) : Except ScenarioError Scenario := do
  match (Assignments.ofText? text).bind default.assignAll? with
  | none => .error .notUnderstood
  | some scenario =>
    scenario.validate
    return scenario

/-- The scenario that a file describes; `none` stands for a file that cannot
be read. -/
def ofFile (content : Option ByteArray) : Except ScenarioError Scenario :=
  match content.bind String.fromUTF8? with
  | none => .error .unreadable
  | some text => ofText text

end MediaSeal.Scenario
