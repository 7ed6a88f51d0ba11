import MediaSeal.Proofs.ForwardSearch
import MediaSeal.Proofs.FrameLayout

/-!
# Whoever has the key gets the frame back

Sender and receiver work with the same store here. The sender reads off the
frame how much of it stays readable, lays out what it sealed and names the
slot; the receiver has only the bytes. It finds the same parts in them, the
slot names the same key, and that key opens the frame before any step is
taken, so nothing in the ring moves.

There is one way out, and it is a condition of the theorem: sealed bytes that
happen to look like a payload exempt from encryption are not opened at all.
-/

namespace MediaSeal

/-! ## Receiving what was laid out -/

/-- A carried payload gets as far as the cipher wherever the slot it names
holds some key. -/
theorem SealedFrame.Carries.reachesCipher {sealed : SealedFrame} {payload : Bytes}
    {algorithm : Algorithm} {slot : UInt8} {frameKey : FrameKey} {store : KeyStore}
    {participant : Participant} {ring : KeyRing} {base : KeyMaterial}
    (h : sealed.Carries payload algorithm slot frameKey)
    (hmarker : Marker.strip? store.options.marker sealed.toBytes = none)
    (hslot : slot.toNat < store.options.ringSize)
    (hring : store.ring? participant = some ring) (hkey : ring.key? slot.toNat = some base)
    (hvalid : ring.invalidated = false) :
    store.ReachesCipher participant algorithm sealed.toBytes sealed ring base where
  nonempty := sealed.toBytes_ne_nil
  unmarked := hmarker
  parsed := SealedFrame.parse_toBytes h.wellFormed
  algorithm_eq := h.algorithm_eq
  index_lt := h.keyIndex_eq ▸ hslot
  ring_eq := hring
  key_eq := h.keyIndex_eq ▸ hkey
  valid := hvalid

/-! ## What a receiver leaves as it was -/

/-- Two stores are set up alike and hold the same keys. -/
structure KeyStore.SameKeys (store other : KeyStore) : Prop where
  options_eq : other.options = store.options
  shared_eq : other.sharedRing.slots = store.sharedRing.slots
  members_eq : ∀ participant, (other.members.find? participant).map (·.slots) =
    (store.members.find? participant).map (·.slots)

theorem KeyStore.sameKeys_withRing {store : KeyStore} {participant : Participant}
    {ring after : KeyRing} (hring : store.ring? participant = some ring)
    (hslots : after.slots = ring.slots) : store.SameKeys (store.withRing participant after) := by
  unfold KeyStore.ring? at hring
  unfold KeyStore.withRing
  by_cases hshared : store.options.shared = true
  · rw [if_pos hshared] at hring ⊢
    injection hring with hring
    subst hring
    exact ⟨rfl, hslots, fun _ => rfl⟩
  · rw [if_neg hshared] at hring ⊢
    refine ⟨rfl, rfl, fun other => ?_⟩
    rw [Members.find?_put]
    by_cases hother : participant = other
    · subst hother
      rw [if_pos rfl, hring, Option.map_some, Option.map_some, hslots]
    · rw [if_neg hother]

/-- Catching up with the key that the slot holds already moves no key. -/
theorem KeyRing.slots_caughtUp {ring : KeyRing} {slot : Nat} {key : KeyMaterial}
    (hkey : ring.key? slot = some key) : (ring.caughtUp slot key).slots = ring.slots :=
  KeyRing.set_of_key? hkey

/-! ## The round trip -/

/-- A frame that is meant to be sealed, in a valid ring that holds a key at an
index within its bounds, is sealed with every vector of the right length, and
that is what encrypting does whatever source the vector is drawn from. If what
comes out is not exempt, it is decrypted to the payload that went in, without
a step, and no key has moved. -/
theorem decrypt_encrypted_frame {store : KeyStore} {participant : Participant} {index : Int}
    {ring : KeyRing} {key : KeyMaterial} {frame : Frame} (algorithm : Algorithm)
    (hoptions : store.options.fault? = none)
    (hring : store.ring? participant = some ring) (hvalid : ring.invalidated = false)
    (hindex : 0 ≤ index ∧ index < store.options.ringSize) (hkey : ring.key? index = some key)
    (hpayload : frame.payload ≠ []) (hlength : frame.payload.length ≤ Gcm.maxLength)
    (hmarker : Marker.exempts store.options.marker frame.payload = false) :
    (∀ iv, iv.length = algorithm.ivLength →
      ∃ wire, frame.encryptWith store participant algorithm index iv = .ok wire ∧
        (Marker.exempts store.options.marker wire = false →
          ∀ carrier : Frame, carrier.payload = wire →
            let outcome := store.decrypt participant algorithm carrier.payload
            outcome.1 = .ok ⟨frame.payload, 0⟩ ∧ store.SameKeys outcome.2)) ∧
    (∀ entropy : Entropy, ∃ iv, iv.length = algorithm.ivLength ∧
      (frame.encrypt store participant algorithm index entropy).1 =
        frame.encryptWith store participant algorithm index iv) := by
  obtain ⟨slot, hslot⟩ := KeyStore.exists_keySlot_eq_ok hoptions hindex
  obtain ⟨rfl, hlt⟩ := KeyStore.keySlot_eq_ok_iff.mp hslot
  have hclear := KeyOptions.leavesClear_eq_false_iff.mpr ⟨hpayload, hmarker⟩
  have hsealing := KeyStore.sealingKey_eq_ok_iff.mpr ⟨hslot, ring, hring, hkey⟩
  refine ⟨fun iv hiv => ?_, fun entropy => ?_⟩
  · obtain ⟨sealed, hsealed⟩ : ∃ sealed, SealedFrame.ofFrame frame algorithm slot key iv = _ :=
      SealedFrame.exists_ofFrame_eq_ok hlength hiv
    refine ⟨sealed.toBytes, ?_, ?_⟩
    · rw [Frame.encryptWith_of_sealingKey hclear hsealing, hsealed]
      rfl
    intro hexempt carrier hcarrier
    rw [hcarrier]
    intro outcome
    have hcarries := SealedFrame.carries_of_ofFrame hpayload hsealed
    obtain ⟨body, hbody, hwhole⟩ := hcarries.opens
    have hreaches := hcarries.reachesCipher (Marker.exempts_eq_false_iff.mp hexempt) hlt hring
      hkey hvalid
    have hdecrypt := hreaches.decrypt_of_opens (Nat.zero_le _) (KeyMaterial.advance_zero key)
      (hcarries.algorithm_eq ▸ hbody)
      (fun earlier hearlier => absurd hearlier (Nat.not_lt_zero earlier))
    rw [hwhole, hcarries.keyIndex_eq] at hdecrypt
    rw [show outcome = _ from hdecrypt]
    exact ⟨rfl, KeyStore.sameKeys_withRing hring (KeyRing.slots_caughtUp hkey)⟩
  · have hreaches : frame.reachesCipher store participant slot.toNat = true := by
      rw [Frame.reachesCipher, hclear, hsealing]
      rfl
    exact ⟨_, entropy.length_draw _, Frame.encrypt_eq_encryptWith hreaches entropy⟩

/-- A ring whose last slot holds a key, and which tolerates no failure. -/
def lastSlotRing : KeyRing := ⟨[], some 0, [none, some (.supplied [1] [])], 0, false⟩

/-- A store whose only member has that ring. -/
def lastSlotStore : KeyStore :=
  let options : KeyOptions :=
    { shared := false
      salt := []
      window := 0
      marker := [7]
      ringSize := 2
      tolerance := some 0 }
  ⟨options, options.emptyRing, [(⟨"a"⟩, lastSlotRing)]⟩

theorem decrypt_encrypted_in_lastSlotStore :
    ∃ wire, (Frame.mk .video true [1, 2, 3]).encryptWith lastSlotStore ⟨"a"⟩ .aesCbc 1
        (Bytes.zeros 16) = .ok wire ∧
      (Marker.exempts [7] wire = false →
        ∀ carrier : Frame, carrier.payload = wire →
          let outcome := lastSlotStore.decrypt ⟨"a"⟩ .aesCbc carrier.payload
          outcome.1 = .ok ⟨[1, 2, 3], 0⟩ ∧ lastSlotStore.SameKeys outcome.2) := by
  have hring : lastSlotStore.ring? ⟨"a"⟩ = some lastSlotRing := rfl
  have hpayload : (Frame.mk .video true [1, 2, 3]).payload ≠ [] := List.cons_ne_nil _ _
  exact (decrypt_encrypted_frame .aesCbc rfl hring rfl (by decide)
    (show lastSlotRing.key? 1 = some (.supplied [1] []) from rfl) hpayload
    (by decide) (by decide)).1 (Bytes.zeros 16) rfl

end MediaSeal
