import MediaSeal.Proofs.RoundTrip
import MediaSeal.Proofs.StoreKeys

/-!
# What a receiver makes of a payload

A payload either moves no key or is a frame that opens. It moves no key if it
is left alone, if it is refused, or if no key in reach opens it; in the last
case a failure is counted, which a ring that tolerates any number of them does
not even note.

The frame of interest is one that was sealed under a later key of the line
that the receiver's own key belongs to. That later key is among those that are
tried. The search may stop before it, at a key that opens the frame as well.
`Reception` says what is certain if such a key has the same material: the
payload is the one that was sealed, and the receiver has come closer.
-/

namespace MediaSeal

/-! ## Payloads that move no key -/

theorem KeyRing.recordFailure_of_tolerance {ring : KeyRing} (h : ring.tolerance = none) :
    ring.recordFailure = (false, ring) := by
  rw [KeyRing.recordFailure, h]

/-- A frame that is rejected has changed nothing but the count of failures in
the ring that it was tried in. -/
theorem KeyStore.store_of_decrypt_error {store : KeyStore} {participant : Participant}
    {algorithm : Algorithm} {payload : Bytes} {error : FrameError}
    (h : (store.decrypt participant algorithm payload).1 = .error error) :
    (store.decrypt participant algorithm payload).2 = store ∨
      ∃ ring, store.ring? participant = some ring ∧
        (store.decrypt participant algorithm payload).2 =
          store.withRing participant ring.recordFailure.2 := by
  have houtcome := store.decrypts participant algorithm payload
  generalize store.decrypt participant algorithm payload = result at h houtcome
  cases houtcome with
  | leftClear hclear => cases h
  | turnedAway haway => exact .inl rfl
  | opened reaches within advanced opens least => cases h
  | failed reaches closed => exact .inr ⟨_, reaches.ring_eq, rfl⟩

/-! ## Any payload whatever

A receiver that is shown a payload has the rings it had, set up as they were,
and in each slot the key that was there or a later one of its line. -/

theorem KeyRing.Fits.recordFailure {options : KeyOptions} {ring : KeyRing}
    (h : ring.Fits options) : ring.recordFailure.2.Fits options where
  size_eq := by
    rw [KeyRing.size, slots_recordFailure]
    exact h.size_eq
  salt_eq := (salt_recordFailure ring).trans h.salt_eq
  tolerance_eq := (tolerance_recordFailure ring).trans h.tolerance_eq
  valid := by
    intro hnone
    rw [recordFailure_of_tolerance (h.tolerance_eq.trans hnone)]
    exact h.valid hnone
  derived := by
    intro index key hkey
    rw [key?_congr (slots_recordFailure ring)] at hkey
    exact h.derived hkey

theorem KeyRing.Fits.caughtUp {options : KeyOptions} {ring : KeyRing} {slot : Nat}
    {key : KeyMaterial} (h : ring.Fits options) (hslot : slot < ring.size)
    (hkey : key.Derived options.salt) : (ring.caughtUp slot key).Fits options :=
  h.set rfl hslot rfl rfl id hkey

theorem KeyStore.key?_withRing_caughtUp {store : KeyStore} {participant : Participant}
    {ring : KeyRing} {slot : Nat} (hring : store.ring? participant = some ring)
    (hslot : slot < ring.size) (key : KeyMaterial) (other : Participant) (index : Int) :
    (store.withRing participant (ring.caughtUp slot key)).key? other index =
      if (store.options.shared = true ∨ participant = other) ∧ index = slot then some key
      else store.key? other index := by
  rw [KeyStore.key?_withRing, KeyRing.key?_caughtUp hslot]
  by_cases hrow : store.options.shared = true ∨ participant = other
  · rw [if_pos hrow, KeyStore.key?_of_same_row hrow, KeyStore.key?_of_ring? hring]
    simp only [hrow, true_and]
  · rw [if_neg hrow, if_neg (fun hin => hrow hin.1)]

theorem KeyStore.key?_withRing_recordFailure {store : KeyStore} {participant : Participant}
    {ring : KeyRing} (hring : store.ring? participant = some ring) (other : Participant)
    (index : Int) :
    (store.withRing participant ring.recordFailure.2).key? other index =
      store.key? other index := by
  rw [KeyStore.key?_withRing, KeyRing.key?_congr (KeyRing.slots_recordFailure ring)]
  split
  · next hrow => rw [KeyStore.key?_of_same_row hrow, KeyStore.key?_of_ring? hring]
  · rfl

/-- One store came of another without being told of new keys. -/
structure KeyStore.MovesTo (store after : KeyStore) : Prop where
  options_eq : after.options = store.options
  sound : after.Sound
  keys : ∀ {participant index key}, store.key? participant index = some key →
    ∃ steps later, key.advance store.options.salt steps = .ok later ∧
      after.key? participant index = some later

theorem KeyStore.Sound.movesTo_self {store : KeyStore} (h : store.Sound) :
    store.MovesTo store where
  options_eq := rfl
  sound := h
  keys := fun hkey => ⟨0, _, KeyMaterial.advance_zero _, hkey⟩

theorem KeyStore.Sound.movesTo_decrypt {store : KeyStore} (h : store.Sound)
    (participant : Participant) (algorithm : Algorithm) (payload : Bytes) :
    store.MovesTo (store.decrypt participant algorithm payload).2 := by
  have houtcome := store.decrypts participant algorithm payload
  generalize store.decrypt participant algorithm payload = result at houtcome
  cases houtcome with
  | leftClear hclear => exact h.movesTo_self
  | turnedAway haway => exact h.movesTo_self
  | opened reaches within advanced opens least =>
      have hfits := h.fits reaches.ring_eq
      rw [hfits.salt_eq] at advanced
      have hderived := KeyMaterial.derived_of_advance advanced
        fun _ => hfits.derived reaches.key_eq
      refine ⟨options_withRing _ _ _,
        h.withRing (hfits.caughtUp reaches.slot_lt hderived) participant, ?_⟩
      intro other index key hkey
      dsimp only
      rw [key?_withRing_caughtUp reaches.ring_eq reaches.slot_lt]
      split
      · next htouched =>
          obtain ⟨hrow, rfl⟩ := htouched
          rw [key?_of_same_row hrow, key?_of_ring? reaches.ring_eq, reaches.key_eq] at hkey
          injection hkey with hkey
          exact ⟨_, _, hkey ▸ advanced, rfl⟩
      · exact h.movesTo_self.keys hkey
  | failed reaches closed =>
      refine ⟨options_withRing _ _ _,
        h.withRing (h.fits reaches.ring_eq).recordFailure participant, ?_⟩
      intro other index key hkey
      dsimp only
      rw [key?_withRing_recordFailure reaches.ring_eq]
      exact h.movesTo_self.keys hkey

/-! ## Frames sealed under a later key -/

/-- A frame that opens under a later key of a line is first opened by that key
or by one on the way to it. -/
theorem SealedFrame.exists_first_opening {salt : Bytes} {frame : SealedFrame}
    {behind ahead : KeyMaterial} {lag : Nat} {body : Bytes}
    (hahead : behind.advance salt lag = .ok ahead)
    (hbody : frame.trailer.algorithm.decrypt ahead.frameKey frame.iv frame.aad
      frame.ciphertext = .ok body) :
    ∃ taken rest found other, taken + rest = lag ∧ behind.advance salt taken = .ok found ∧
      found.advance salt rest = .ok ahead ∧
      frame.trailer.algorithm.decrypt found.frameKey frame.iv frame.aad frame.ciphertext =
        .ok other ∧
      ∀ earlier < taken, ∀ body, ¬ frame.OpensAfter salt behind earlier body := by
  rcases frame.least_or_closed salt behind lag with
    ⟨taken, htaken, ⟨other, found, hfound, hother⟩, hleast⟩ | hclosed
  · obtain ⟨rest, rfl⟩ := Nat.exists_eq_add_of_le htaken
    rw [KeyMaterial.advance_add hfound] at hahead
    exact ⟨taken, rest, found, other, rfl, hfound, hahead, hother, hleast⟩
  · exact absurd ⟨ahead, hahead, hbody⟩ (hclosed lag (Nat.le_refl lag) body)

/-- What comes of a frame that was sealed under `ahead`, further down the line
of the receiver's key: it is opened with the first key of the line that has the
same material, that key is kept, and the rest of the way remains. -/
structure KeyStore.Reception (store : KeyStore) (participant : Participant)
    (algorithm : Algorithm) (index : Int) (payload wire : Bytes)
    (ahead behind found : KeyMaterial) (taken rest : Nat) : Prop where
  behind_eq : store.key? participant index = some behind
  taken_eq : behind.advance store.options.salt taken = .ok found
  rest_eq : found.advance store.options.salt rest = .ok ahead
  within : taken + rest ≤ store.options.window.toNat
  raw_eq : found.raw = ahead.raw
  first : ∀ earlier < taken, ∀ candidate,
    behind.advance store.options.salt earlier = .ok candidate → candidate.raw ≠ ahead.raw
  opened : (store.decrypt participant algorithm wire).1 = .ok ⟨payload, taken⟩
  options_eq : (store.decrypt participant algorithm wire).2.options = store.options
  sound : (store.decrypt participant algorithm wire).2.Sound
  keys : ∀ other place, (store.decrypt participant algorithm wire).2.key? other place =
    if (store.options.shared = true ∨ participant = other) ∧ place = index then some found
    else store.key? other place

/-- The sender's own key is among those that the frame is tried with, so the
search ends there or before, at a key that gives the same payload. -/
theorem KeyStore.Sound.reception {store : KeyStore} {participant : Participant}
    {algorithm : Algorithm} {slot : UInt8} {payload : Bytes} {sealed : SealedFrame}
    {ahead behind : KeyMaterial} {lag : Nat} (h : store.Sound)
    (htolerance : store.options.tolerance = none) (hlt : slot.toNat < store.options.ringSize)
    (hbehind : store.key? participant slot.toNat = some behind)
    (hlag : lag ≤ store.options.window.toNat)
    (hdescends : behind.advance store.options.salt lag = .ok ahead)
    (hcarries : sealed.Carries payload algorithm slot ahead.frameKey)
    (hexempt : Marker.exempts store.options.marker sealed.toBytes = false)
    (honly : ∀ steps candidate body, steps ≤ store.options.window.toNat →
      behind.advance store.options.salt steps = .ok candidate →
      algorithm.decrypt candidate.frameKey sealed.iv sealed.aad sealed.ciphertext = .ok body →
      candidate.raw = ahead.raw) :
    ∃ found taken rest, store.Reception participant algorithm slot.toNat payload
      sealed.toBytes ahead behind found taken rest := by
  obtain ⟨ring, hring, hkey⟩ := KeyStore.key?_eq_some_iff.mp hbehind
  have hfits := h.fits hring
  have hreaches := hcarries.reachesCipher (Marker.exempts_eq_false_iff.mp hexempt) hlt hring
    hkey (hfits.valid htolerance)
  have hin := hreaches.slot_lt
  obtain ⟨body, hbody, hwhole⟩ := hcarries.opens
  rw [← hcarries.algorithm_eq] at hbody
  obtain ⟨taken, rest, found, other, rfl, htaken, hrest, hother, hleast⟩ :=
    SealedFrame.exists_first_opening hdescends hbody
  have hraw : found.raw = ahead.raw :=
    honly taken found other (by omega) htaken (hcarries.algorithm_eq ▸ hother)
  -- All keys of the line belong to their material, so `found` and `ahead`
  -- have one frame key, and the payload is the one that was sealed.
  have hline : ∀ steps candidate, behind.advance store.options.salt steps = .ok candidate →
      candidate.Derived store.options.salt := fun steps candidate hcandidate =>
    KeyMaterial.derived_of_advance hcandidate fun _ => hfits.derived hkey
  have hmaterial := hline _ _ hdescends
  have hsame := KeyMaterial.frameKey_eq_of_derived hraw (hline _ _ htaken) hmaterial
  obtain rfl : body = other := by
    rw [hsame] at hother
    exact Except.ok.inj (hbody.symm.trans hother)
  have hdecrypt := hreaches.decrypt_of_opens (by omega) (hfits.salt_eq.symm ▸ htaken) hother
    (fun earlier hearlier body hopens => hleast earlier hearlier body (hfits.salt_eq ▸ hopens))
  rw [hwhole, hcarries.keyIndex_eq] at hdecrypt
  rw [hcarries.keyIndex_eq] at hin
  refine ⟨found, taken, rest, ?_⟩
  exact
    { behind_eq := hbehind
      taken_eq := htaken
      rest_eq := hrest
      within := hlag
      raw_eq := hraw
      first := by
        intro earlier hearlier candidate hcandidate hagain
        refine hleast earlier hearlier body ⟨candidate, hcandidate, ?_⟩
        rw [KeyMaterial.frameKey_eq_of_derived hagain (hline _ _ hcandidate) hmaterial]
        exact hbody
      opened := by rw [hdecrypt]
      options_eq := by rw [hdecrypt, KeyStore.options_withRing]
      sound := by
        rw [hdecrypt]
        exact h.withRing (hfits.caughtUp hin (hline _ _ htaken)) participant
      keys := by
        rw [hdecrypt]
        exact KeyStore.key?_withRing_caughtUp hring hin found }

end MediaSeal
