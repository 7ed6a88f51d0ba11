import MediaSeal.Bytes

/-!
# Padding to whole blocks

A message is followed by one to sixteen bytes, each holding their number, so
that the whole is a positive multiple of sixteen and the message's end can be
found again. A byte string is a padded message only if all the bytes of the
padding are right.
-/

namespace MediaSeal.Padding

/-- How many bytes complete a message of this length. -/
def width (length : Nat) : Nat := 16 - length % 16

/-- The message followed by its padding. -/
def add (message : Bytes) : Bytes :=
  message ++ List.replicate (width message.length) (UInt8.ofNat (width message.length))

/-- The message that was padded, if this is one. -/
def strip? (padded : Bytes) : Option Bytes :=
  let last := padded.getLast?.getD 0
  let start := padded.length - last.toNat
  if 1 ≤ last.toNat ∧ last.toNat ≤ 16 ∧ padded.drop start = List.replicate last.toNat last then
    some (padded.take start)
  else none

theorem length_add (message : Bytes) :
    (add message).length = 16 * (message.length / 16 + 1) := by
  simp [add, width]
  omega

/-- The padding tells where the message ends. -/
theorem strip?_add (message : Bytes) : strip? (add message) = some message := by
  have hwidth : 1 ≤ width message.length ∧ width message.length ≤ 16 := by
    simp only [width]
    omega
  have hlast : (add message).getLast?.getD 0 = UInt8.ofNat (width message.length) := by
    have hne : width message.length ≠ 0 := by omega
    simp [add, List.getLast?_append, List.getLast?_replicate, hne]
  have hvalue : (UInt8.ofNat (width message.length)).toNat = width message.length := by
    simp only [UInt8.toNat_ofNat']
    omega
  have hstart : (add message).length - width message.length = message.length := by
    simp [add]
  simp only [strip?, hlast, hvalue, hstart]
  rw [if_pos ⟨hwidth.1, hwidth.2, by simp [add]⟩]
  simp [add]

end MediaSeal.Padding
