import MediaSeal.Bytes

/-!
# Media frames

An encoded frame as it travels along a media path. The first few bytes of a
frame stay readable after encryption, since packetizers and decoders look at
them; how many depends on the kind of frame. At least one byte of a frame is
always left to encrypt.
-/

namespace MediaSeal

/-- What a media path carries. -/
inductive MediaKind
  | audio
  | video
deriving DecidableEq, Repr

namespace MediaKind

/-- The kind's name. -/
def name : MediaKind → String
  | audio => "audio"
  | video => "video"

/-- The kind of a name, in any case of its ASCII letters. -/
def ofName? (name : String) : Option MediaKind :=
  match name.toLower with
  | "audio" => some audio
  | "video" => some video
  | _ => none

end MediaKind

/-- One encoded frame. -/
structure Frame where
  kind : MediaKind
  /-- Whether a decoder can start here; means nothing for audio. -/
  keyFrame : Bool
  payload : Bytes
deriving DecidableEq, Repr

namespace Frame

/-- How many leading bytes a frame of this kind would leave readable. -/
def clearLength (frame : Frame) : Nat :=
  match frame.kind with
  | .audio => 1
  | .video => if frame.keyFrame then 10 else 3

/-- How many leading bytes this frame does leave readable: all but one, if it
is that short. -/
def headerLength (frame : Frame) : Nat := min frame.clearLength (frame.payload.length - 1)

/-- The frame with another payload. -/
def withPayload (frame : Frame) (payload : Bytes) : Frame := { frame with payload }

theorem headerLength_le_ten (frame : Frame) : frame.headerLength ≤ 10 := by
  unfold headerLength clearLength
  split
  · omega
  · split <;> omega

theorem headerLength_lt {frame : Frame} (h : frame.payload ≠ []) :
    frame.headerLength < frame.payload.length := by
  have := List.length_pos_iff.mpr h
  unfold headerLength
  omega

end Frame

end MediaSeal
