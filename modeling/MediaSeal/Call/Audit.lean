import MediaSeal.Call.Snapshot
import MediaSeal.Endpoint
import MediaSeal.Frame.Marker

/-!
# Auditing a call

Four things must be true of any call, whatever was sent and whatever went
wrong. A check looks for the first place in a snapshot where one of them is
not; an audit runs some checks in order and collects what they find.
-/

namespace MediaSeal

/-- Something that must not happen, and where it did. -/
inductive Violation
  /-- A frame that should have been encrypted left without growing. -/
  | plaintextLeak (frame plaintextLength wireLength : Nat)
  /-- A frame was delivered that is not the one sent. -/
  | notIntact (frame deliveredLength expectedLength : Nat)
  /-- A side reported the same outcome twice in a row. -/
  | repeated (side : Direction) (outcome : Outcome) (event : Nat)
  /-- The receiver's key went back. -/
  | decreased (before after : UInt32)
deriving DecidableEq, Repr

/-- The ways in which a call can be checked. -/
inductive Check
  | noPlaintextLeak
  | deliveredIntact
  | suppressedTransitions
  | generationMonotonicity
deriving DecidableEq, Repr

/-- The check's name. -/
def Check.name : Check → String
  | noPlaintextLeak => "NoPlaintextLeak"
  | deliveredIntact => "DeliveredIntact"
  | suppressedTransitions => "SuppressedTransitions"
  | generationMonotonicity => "GenerationMonotonicity"

namespace Violation

/-- The check that finds such a violation. -/
def check : Violation → Check
  | plaintextLeak _ _ _ => .noPlaintextLeak
  | notIntact _ _ _ => .deliveredIntact
  | repeated _ _ _ => .suppressedTransitions
  | decreased _ _ => .generationMonotonicity

/-- The violation in words. -/
def message : Violation → String
  | plaintextLeak frame plaintext wire =>
    s!"frame {frame}: {plaintext} plaintext bytes sent as {wire} wire bytes without encryption"
  | notIntact frame delivered expected =>
    s!"frame {frame}: delivered {delivered} bytes differ from the {expected} bytes sent"
  | repeated side outcome event =>
    s!"{side.text} reported {outcome.text} twice in a row at event {event}"
  | decreased before after => s!"generation decreased {before} → {after}"

/-- The violation in words, after the name of the check that found it. -/
def text (violation : Violation) : String := s!"{violation.check.name}: {violation.message}"

end Violation

/-! ## What each check looks for -/

/-- The first thing that a test finds among things numbered from `start`. -/
def firstFound? {α β : Type} (test : Nat → α → Option β) : (start : Nat) → List α → Option β
  | _, [] => none
  | start, a :: rest =>
    match test start a with
    | some b => some b
    | none => firstFound? test (start + 1) rest

/-- What one frame says about a leak. -/
def FrameRecord.leak? (marker : Bytes) (number : Nat) (frame : FrameRecord) : Option Violation :=
  match frame.wire with
  | none => none
  | some wire =>
    if frame.encrypted ∧ ¬frame.plaintext.isEmpty ∧ ¬Marker.exempts marker frame.plaintext ∧
        wire.length ≤ frame.plaintext.length then
      some (.plaintextLeak number frame.plaintext.length wire.length)
    else none

/-- What should be delivered for a frame: the frame, without the marker if it
bears one. -/
def FrameRecord.expected (marker : Bytes) (frame : FrameRecord) : Bytes :=
  (Marker.strip? marker frame.plaintext).getD frame.plaintext

/-- What one frame says about damage. -/
def FrameRecord.damage? (marker : Bytes) (number : Nat) (frame : FrameRecord) :
    Option Violation :=
  match frame.delivered with
  | none => none
  | some delivered =>
    let expected := frame.expected marker
    if frame.encrypted ∧ delivered ≠ expected then
      some (.notIntact number delivered.length expected.length)
    else none

/-- The first outcome that equals the one before it; events are numbered from
`event`. -/
def firstRepeat? (side : Direction) : (event : Nat) → List Outcome → Option Violation
  | event, first :: second :: rest =>
    if first = second then some (.repeated side second (event + 1))
    else firstRepeat? side (event + 1) (second :: rest)
  | _, _ => none

/-- The first generation that is below the one before it. -/
def firstDecrease? : List UInt32 → Option Violation
  | first :: second :: rest =>
    if second < first then some (.decreased first second) else firstDecrease? (second :: rest)
  | _ => none

/-- What a check finds in a snapshot. -/
def Check.run (check : Check) (snapshot : Snapshot) : Option Violation :=
  match check with
  | noPlaintextLeak => firstFound? (FrameRecord.leak? snapshot.marker) 0 snapshot.frames
  | deliveredIntact => firstFound? (FrameRecord.damage? snapshot.marker) 0 snapshot.frames
  | suppressedTransitions =>
    match firstRepeat? .sender 0 snapshot.senderOutcomes with
    | some violation => some violation
    | none => firstRepeat? .receiver 0 snapshot.receiverOutcomes
  | generationMonotonicity => firstDecrease? snapshot.receiverGenerations

/-! ## Audits -/

/-- Checks in the order in which they are run. -/
abbrev Audit := List Check

namespace Audit

/-- Every check once. -/
def standard : Audit :=
  [.noPlaintextLeak, .deliveredIntact, .suppressedTransitions, .generationMonotonicity]

/-- What the checks find, in order. -/
def violations (audit : Audit) (snapshot : Snapshot) : List Violation :=
  audit.filterMap (·.run snapshot)

/-- A complaint that lists all violations, if there are any. -/
def complaint? (audit : Audit) (snapshot : Snapshot) (context : String) : Option String :=
  match audit.violations snapshot with
  | [] => none
  | violations =>
    some (s!"Invariant violation {context}:\n  " ++
      "\n  ".intercalate (violations.map (·.text)))

end Audit

end MediaSeal
