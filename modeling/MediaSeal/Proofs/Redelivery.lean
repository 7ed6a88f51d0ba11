import MediaSeal.Proofs.AcceptedFrames
import MediaSeal.Proofs.Lockstep

/-!
# A payload that was accepted is accepted again

Networks deliver twice. What opened a payload the first time may be a key some
generations after the one that the slot held, found by a search; the second time it
is the key that the slot holds, for the first delivery has put it there. No search
is needed any more, and there is nothing left to change: the slot has the key, and
the failures are back to zero. So the second delivery is where deliveries come to
rest, and all that follow are like it.
-/

namespace MediaSeal

/-! ## The key that opened a frame -/

namespace KeyRing

theorem caughtUp_caughtUp (ring : KeyRing) (slot : Nat) (first second : KeyMaterial) :
    (ring.caughtUp slot first).caughtUp slot second = ring.caughtUp slot second := by
  simp only [caughtUp, List.set_set]

end KeyRing

namespace KeyStore

variable {store : KeyStore} {participant : Participant} {algorithm : Algorithm}
  {payload : Bytes} {frame : SealedFrame} {ring : KeyRing} {base key : KeyMaterial}

/-- A frame reaches the cipher again, and this time it starts from the key that
was found. -/
theorem ReachesCipher.caughtUp
    (h : store.ReachesCipher participant algorithm payload frame ring base)
    (key : KeyMaterial) :
    let later := ring.caughtUp frame.trailer.keyIndex.toNat key
    (store.withRing participant later).ReachesCipher participant algorithm payload frame
      later key where
  nonempty := h.nonempty
  unmarked := by rw [options_withRing]; exact h.unmarked
  parsed := h.parsed
  algorithm_eq := h.algorithm_eq
  index_lt := by rw [options_withRing]; exact h.index_lt
  ring_eq := store.ring?_withRing_self participant _
  key_eq := by rw [KeyRing.key?_caughtUp h.slot_lt, if_pos rfl]
  valid := h.valid

/-- It opens at once, and leaves the ring as it is. -/
theorem ReachesCipher.decrypt_caughtUp {body : Bytes}
    (h : store.ReachesCipher participant algorithm payload frame ring base)
    (hbody : frame.trailer.algorithm.decrypt key.frameKey frame.iv frame.aad
      frame.ciphertext = .ok body) :
    let later := ring.caughtUp frame.trailer.keyIndex.toNat key
    (store.withRing participant later).decrypt participant algorithm payload =
      (.ok ⟨frame.header ++ body, 0⟩, store.withRing participant later) := by
  intro later
  rw [(h.caughtUp key).decrypt_of_opens (Nat.zero_le _) (KeyMaterial.advance_zero key) hbody
    (fun _ hearlier => absurd hearlier (Nat.not_lt_zero _)), KeyRing.caughtUp_caughtUp,
    withRing_eq_withRingOf, withRing_eq_withRingOf, options_withRingOf, withRingOf_withRingOf]

end KeyStore

/-! ## Deliveries -/

/-- Whatever keys a payload took when it was accepted, delivered again it is
accepted for the same content at the first try, and the store stays as it is; and
so each time after that. -/
theorem decrypt_again {store after : KeyStore} {participant : Participant}
    {algorithm : Algorithm} {payload : Bytes} {opened : Opened}
    (h : store.decrypt participant algorithm payload = (.ok opened, after)) :
    after.decrypt participant algorithm payload = (.ok ⟨opened.payload, 0⟩, after) ∧
      ∀ count,
        let delivery := StoreCall.member participant (.decrypt algorithm payload)
        let deliveries := List.replicate count delivery
        after.afterRun deliveries = after ∧
          after.exchanges deliveries =
            List.replicate count ⟨delivery, .decrypted (.ok ⟨opened.payload, 0⟩)⟩ := by
  have hagain : after.decrypt participant algorithm payload =
      (.ok ⟨opened.payload, 0⟩, after) := by
    have houtcome := store.decrypts participant algorithm payload
    rw [h] at houtcome
    cases houtcome with
    | leftClear hclear => exact h
    | opened reaches within advanced opens least => exact reaches.decrypt_caughtUp opens
  refine ⟨hagain, ?_⟩
  intro count delivery deliveries
  have hdelivery : after.perform delivery =
      (.decrypted (.ok ⟨opened.payload, 0⟩), after) := by
    rw [KeyStore.perform_decrypt, hagain]
  exact ⟨KeyStore.afterRun_replicate hdelivery count,
    KeyStore.exchanges_replicate hdelivery count⟩

/-- A receiver that is one generation behind searches for the first delivery only. -/
theorem oneBehind_decrypts_again :
    ∃ sealed after opened,
      SealedFrame.ofFrame skippingFrame .aesGcm 1 skippedToKey (Bytes.zeros 12) = .ok sealed ∧
      oneBehind.decrypt ⟨"a"⟩ .aesGcm sealed.toBytes = (.ok opened, after) ∧
      opened.steps = 1 ∧
      after.decrypt ⟨"a"⟩ .aesGcm sealed.toBytes = (.ok ⟨opened.payload, 0⟩, after) := by
  obtain ⟨sealed, opened, after, hsealed, hdecrypt, hsteps⟩ := exists_oneBehind_decrypt_eq
  exact ⟨sealed, after, opened, hsealed, hdecrypt, hsteps, (decrypt_again hdecrypt).1⟩

end MediaSeal
