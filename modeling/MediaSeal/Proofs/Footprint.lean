import MediaSeal.Proofs.Lockstep
import MediaSeal.Proofs.RoundTrip

/-!
# What decrypting can touch

Anybody can send a receiver bytes, so what matters most about a payload is what
it cannot do. Most payloads come to an end before a key is tried, and leave the
store alone. The others are tried in one ring, the one that the participant uses,
and this is all that they reach: a frame that no key opens adds a failure to the
ring's count, and one that opens takes the count back to zero and puts the key that
opened it into the slot that it names.

That slot holds another key afterwards only if steps were taken. Without steps,
what is put there is what was there.
-/

namespace MediaSeal

/-! ## All but one ring -/

theorem Members.map_fst_put {members : Members} {participant : Participant}
    {ring old : KeyRing} (h : members.find? participant = some old) :
    (members.put participant ring).map Prod.fst = members.map Prod.fst := by
  induction members with
  | nil => cases h
  | cons entry rest ih =>
      obtain ⟨owner, first⟩ := entry
      by_cases howner : owner = participant
      · simp only [put, if_pos howner, List.map_cons]
      · simp only [find?, if_neg howner] at h
        simp only [put, if_neg howner, List.map_cons, ih h]

namespace KeyStore

/-- Set up alike, with rings for the same participants in the same order; and
only one ring need not be the same. -/
structure DiffersAt (store : KeyStore) (owner : Owner) (after : KeyStore) : Prop where
  options_eq : after.options = store.options
  members_eq : after.members.map Prod.fst = store.members.map Prod.fst
  ring_eq : ∀ other, other ≠ owner → after.ringOf? other = store.ringOf? other

variable {store : KeyStore} {participant : Participant} {old : KeyRing}

theorem differsAt_withRing (h : store.ring? participant = some old) (ring : KeyRing) :
    store.DiffersAt (store.options.ownerFor participant)
      (store.withRing participant ring) where
  options_eq := options_withRing store participant ring
  members_eq := by
    unfold ring? at h
    unfold withRing
    by_cases hshared : store.options.shared = true
    · rw [if_pos hshared]
    · rw [if_neg hshared] at h ⊢
      exact Members.map_fst_put h
  ring_eq := by
    intro other hother
    rw [withRing_eq_withRingOf, ringOf?_withRingOf, if_neg hother.symm]

theorem ringOf?_withRing (store : KeyStore) (participant : Participant) (ring : KeyRing) :
    (store.withRing participant ring).ringOf? (store.options.ownerFor participant) =
      some ring := by
  rw [withRing_eq_withRingOf, ringOf?_withRingOf, if_pos rfl]

end KeyStore

/-! ## Within that ring -/

/-- A ring after a success at a slot: there are no failures any more, and only
that slot may be another, and that only if steps were taken. -/
structure KeyRing.SucceedsTo (ring : KeyRing) (slot steps : Nat) (after : KeyRing) : Prop where
  salt_eq : after.salt = ring.salt
  tolerance_eq : after.tolerance = ring.tolerance
  invalidated_eq : after.invalidated = ring.invalidated
  size_eq : after.size = ring.size
  failures_eq : after.failures = 0
  elsewhere_eq : ∀ place, place ≠ slot → after.slots[place]? = ring.slots[place]?
  still : steps = 0 → after.slots = ring.slots

theorem KeyRing.succeedsTo_caughtUp {ring : KeyRing} {slot steps : Nat}
    {base key : KeyMaterial} (hbase : ring.key? slot = some base)
    (hkey : base.advance ring.salt steps = .ok key) :
    ring.SucceedsTo slot steps (ring.caughtUp slot key) where
  salt_eq := rfl
  tolerance_eq := rfl
  invalidated_eq := rfl
  size_eq := List.length_set
  failures_eq := rfl
  elsewhere_eq := fun _ hplace => List.getElem?_set_ne hplace.symm
  still := by
    rintro rfl
    obtain rfl : base = key := Except.ok.inj hkey
    exact slots_caughtUp hbase

namespace KeyStore.ReachesCipher

variable {store : KeyStore} {participant : Participant} {algorithm : Algorithm}
  {payload : Bytes} {frame : SealedFrame} {ring : KeyRing} {base : KeyMaterial}

theorem leavesClear_eq (h : store.ReachesCipher participant algorithm payload frame ring base) :
    store.options.leavesClear payload = false :=
  KeyOptions.leavesClear_eq_false_iff.mpr
    ⟨h.nonempty, Marker.exempts_eq_false_iff.mpr h.unmarked⟩

theorem getLast?_eq (h : store.ReachesCipher participant algorithm payload frame ring base) :
    payload.getLast? = some frame.trailer.keyIndex := by
  rw [← (SealedFrame.parse_eq_ok_iff.mp h.parsed).2, SealedFrame.getLast?_toBytes]

theorem ringOf?_eq (h : store.ReachesCipher participant algorithm payload frame ring base) :
    store.ringOf? (store.options.ownerFor participant) = some ring := by
  rw [← ring?_eq_ringOf?, h.ring_eq]

end KeyStore.ReachesCipher

/-! ## Any payload whatever -/

theorem KeyStore.sameKeys_self (store : KeyStore) : store.SameKeys store :=
  ⟨rfl, rfl, fun _ => rfl⟩

/-- A payload that is refused has changed no key of any ring, and no ring has
come or gone. It has changed nothing at all unless keys were tried in vain, and
then the ring of the participant has counted one failure and the others are as
they were. A payload that is accepted has changed nothing if it was left clear; if
it was opened, the ring of the participant has counted back to zero, and at most
the slot that the last byte names holds another key, if steps were taken. -/
theorem decrypt_touches_one_slot (store : KeyStore) (participant : Participant)
    (algorithm : Algorithm) (payload : Bytes) :
    let outcome := store.decrypt participant algorithm payload
    let owner := store.options.ownerFor participant
    (∀ error, outcome.1 = .error error →
      store.SameKeys outcome.2 ∧
      outcome.2.members.map Prod.fst = store.members.map Prod.fst ∧
      ((∀ index attempts, error ≠ .decryptionFailed index attempts) → outcome.2 = store) ∧
      (∀ index attempts, error = .decryptionFailed index attempts →
        store.DiffersAt owner outcome.2 ∧
        ∃ ring, store.ringOf? owner = some ring ∧
          outcome.2.ringOf? owner = some ring.recordFailure.2)) ∧
    (∀ opened, outcome.1 = .ok opened →
      (store.options.leavesClear payload = true → outcome.2 = store) ∧
      (store.options.leavesClear payload = false →
        store.DiffersAt owner outcome.2 ∧
        ∃ ring after last, store.ringOf? owner = some ring ∧
          outcome.2.ringOf? owner = some after ∧ payload.getLast? = some last ∧
          ring.SucceedsTo last.toNat opened.steps after)) := by
  intro outcome owner
  have houtcome : store.Decrypts participant algorithm payload outcome := store.decrypts ..
  generalize outcome = result at houtcome
  cases houtcome with
  | leftClear h =>
      refine ⟨fun _ => nofun, fun opened _ => ⟨fun _ => rfl, fun hclear => ?_⟩⟩
      rw [KeyOptions.leavesClear_of_strip? h] at hclear
      cases hclear
  | turnedAway h =>
      refine ⟨fun error herror => ?_, fun _ => nofun⟩
      obtain rfl := Except.error.inj herror
      refine ⟨store.sameKeys_self, rfl, fun _ => rfl, fun index attempts hfailed => ?_⟩
      rw [hfailed] at h
      cases h
  | opened reaches within advanced opens least =>
      refine ⟨fun _ => nofun, fun opened hopened => ⟨fun hclear => ?_, fun _ => ?_⟩⟩
      · rw [reaches.leavesClear_eq] at hclear
        cases hclear
      · obtain rfl := Except.ok.inj hopened
        exact ⟨KeyStore.differsAt_withRing reaches.ring_eq _, _, _, _, reaches.ringOf?_eq,
          store.ringOf?_withRing participant _, reaches.getLast?_eq,
          KeyRing.succeedsTo_caughtUp reaches.key_eq advanced⟩
  | @failed frame ring base reaches closed =>
      refine ⟨fun error herror => ?_, fun _ => nofun⟩
      obtain rfl := Except.error.inj herror
      have hdiffers := KeyStore.differsAt_withRing reaches.ring_eq ring.recordFailure.2
      refine ⟨KeyStore.sameKeys_withRing reaches.ring_eq (KeyRing.slots_recordFailure ring),
        hdiffers.members_eq, fun hother => absurd rfl (hother _ _), fun _ _ _ => ?_⟩
      exact ⟨hdiffers, _, reaches.ringOf?_eq, store.ringOf?_withRing participant _⟩

/-- A frame that is too short for its tag is tried in vain, and the ring that tolerates no
failure counts one. -/
theorem short_frame_touches_the_count :
    let outcome := lastSlotStore.decrypt ⟨"a"⟩ .aesGcm (Bytes.zeros 12 ++ [0, 1, 12, 1])
    outcome.1 = .error (.decryptionFailed 1 1) ∧ lastSlotStore.SameKeys outcome.2 ∧
      outcome.2.ringOf? (.participant ⟨"a"⟩) = some { lastSlotRing with
        failures := 1
        invalidated := true } := by
  intro outcome
  have herror : outcome.1 = .error (.decryptionFailed 1 1) := rfl
  obtain ⟨hkeys, -, -, hcounted⟩ := (decrypt_touches_one_slot lastSlotStore ⟨"a"⟩ .aesGcm
    (Bytes.zeros 12 ++ [0, 1, 12, 1])).1 _ herror
  obtain ⟨-, ring, hring, hafter⟩ := hcounted 1 1 rfl
  obtain rfl : lastSlotRing = ring := Option.some.inj hring
  exact ⟨herror, hkeys, hafter⟩

end MediaSeal
