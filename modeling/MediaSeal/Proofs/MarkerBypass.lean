import MediaSeal.Proofs.Exemption
import MediaSeal.Proofs.Sending

/-!
# Clear frames from end to end

A frame that bears the marker is let through by both sides, whatever keys they
have or lack. What it bears can be read in one way only: the marker and the byte
after it have a fixed length, so they end where the payload ends, and a marker
that overlaps itself makes no difference. Nor can a payload be the marker and end
in the marker but for one byte, since it would be longer than itself.

Both sides ask for the marker before they ask for anything that could fail or
change: an index, a ring, a key, a random byte. So a sender hands on the frame as
it is, a receiver hands on what the marker leaves of it, and nothing else happens
than that both note a success.
-/

namespace MediaSeal

namespace Marker

variable {marker payload clear other : Bytes} {last byte : UInt8}

theorem length_append_marker (clear marker : Bytes) (last : UInt8) :
    (clear ++ marker ++ [last]).length = clear.length + marker.length + 1 := by
  rw [List.length_append, List.length_append, List.length_singleton]

theorem append_marker_ne (clear marker : Bytes) (last : UInt8) :
    clear ++ marker ++ [last] ≠ marker := by
  intro hsame
  have hlength := length_append_marker clear marker last
  rw [hsame] at hlength
  omega

theorem append_marker_inj (h : clear ++ marker ++ [last] = other ++ marker ++ [byte]) :
    clear = other ∧ last = byte := by
  obtain ⟨hfront, hlast⟩ := List.append_inj' h rfl
  obtain ⟨hclear, -⟩ := List.append_inj' hfront rfl
  exact ⟨hclear, List.singleton_inj.mp hlast⟩

theorem strip?_of_empty (payload : Bytes) : strip? [] payload = none := by
  simp [strip?]

theorem strip?_self (hmarker : marker ≠ []) : strip? marker marker = some marker :=
  strip?_eq_some_iff.mpr ⟨hmarker, .inl ⟨rfl, rfl⟩⟩

theorem strip?_append_marker (hmarker : marker ≠ []) (clear : Bytes) (last : UInt8) :
    strip? marker (clear ++ marker ++ [last]) = some clear :=
  strip?_eq_some_iff.mpr ⟨hmarker, .inr ⟨last, rfl⟩⟩

theorem isSome_strip?_iff (hmarker : marker ≠ []) :
    (strip? marker payload).isSome = true ↔
      payload = marker ∨ ∃ clear last, payload = clear ++ marker ++ [last] := by
  rw [Option.isSome_iff_exists]
  constructor
  · intro h
    obtain ⟨clear, hclear⟩ := h
    obtain ⟨-, ⟨hwhole, -⟩ | hends⟩ := strip?_eq_some_iff.mp hclear
    · exact .inl hwhole
    · exact .inr ⟨clear, hends⟩
  · intro h
    cases h with
    | inl hwhole =>
        subst hwhole
        exact ⟨payload, strip?_self hmarker⟩
    | inr hends =>
        obtain ⟨clear, last, rfl⟩ := hends
        exact ⟨clear, strip?_append_marker hmarker clear last⟩

end Marker

/-! ## Both sides -/

namespace Endpoint

variable {Name : Type} {endpoint : Endpoint Name} {store : KeyStore} {frame : Frame}
  {clear : Bytes}

theorem attempt_of_process (henabled : endpoint.enabled = true) {entropy : Entropy}
    {payload : Bytes}
    (h : endpoint.process store entropy frame = (.ok ⟨payload, 0⟩, store, entropy)) :
    endpoint.attempt store entropy frame =
      { endpoint := { endpoint with lastOutcome := some .ok }
        store, entropy
        output := some (frame.withPayload payload)
        transitions := Outcome.transitions endpoint.lastOutcome [.ok] } := by
  unfold attempt
  rw [if_pos henabled, h]
  rfl

theorem process_of_exempt_sender (hdirection : endpoint.direction = .sender)
    (h : Marker.strip? store.options.marker frame.payload = some clear) (entropy : Entropy) :
    endpoint.process store entropy frame = (.ok ⟨frame.payload, 0⟩, store, entropy) := by
  have hclear : store.options.leavesClear frame.payload = true :=
    KeyOptions.leavesClear_of_strip? (.inr h)
  simp only [process, hdirection, Frame.encrypt_eq_of_clear hclear]
  rfl

theorem process_of_exempt_receiver (hdirection : endpoint.direction = .receiver)
    (h : Marker.strip? store.options.marker frame.payload = some clear) (entropy : Entropy) :
    endpoint.process store entropy frame = (.ok ⟨clear, 0⟩, store, entropy) := by
  simp only [process, hdirection, KeyStore.decrypt_of_exempt h]

end Endpoint

/-- What a payload that bears the marker says can be read in one way, and no other
payload bears it. Whatever a store holds, and whatever index, cipher, participant
and source it is used with, such a payload is encrypted to itself and decrypted to
what it says; and from a sender to a receiver it goes through in this way with
nothing drawn and no key changed. -/
theorem marked_frames_go_through_clear (marker payload : Bytes) :
    (marker = [] → Marker.strip? marker payload = none) ∧
    (marker ≠ [] →
      ((Marker.strip? marker payload).isSome = true ↔
        payload = marker ∨ ∃ clear last, payload = clear ++ marker ++ [last]) ∧
      (payload = marker →
        Marker.strip? marker payload = some payload ∧
          ∀ clear last, payload ≠ clear ++ marker ++ [last]) ∧
      ∀ clear last, payload = clear ++ marker ++ [last] →
        Marker.strip? marker payload = some clear ∧ payload ≠ marker ∧
          ∀ other byte, payload = other ++ marker ++ [byte] → other = clear ∧ byte = last) ∧
    ∀ clear, Marker.strip? marker payload = some clear →
      ∀ frame : Frame, frame.payload = payload →
      ∀ sending receiving : KeyStore, sending.options.marker = marker →
        receiving.options.marker = marker →
      (∀ participant algorithm index entropy,
        frame.encrypt sending participant algorithm index entropy = (.ok payload, entropy)) ∧
      (∀ participant algorithm,
        receiving.decrypt participant algorithm payload = (.ok ⟨clear, 0⟩, receiving)) ∧
      ∀ (Name : Type) (sender receiver : Endpoint Name), sender.direction = .sender →
        sender.enabled = true → receiver.direction = .receiver → receiver.enabled = true →
      ∀ entropy other,
        let sent := sender.attempt sending entropy frame
        let received := receiver.attempt receiving other frame
        sent.output = some frame ∧ sent.store = sending ∧ sent.entropy = entropy ∧
          received.output = some (frame.withPayload clear) ∧ received.store = receiving ∧
            received.entropy = other := by
  refine ⟨?_, ?_, ?_⟩
  · intro hempty
    rw [hempty]
    exact Marker.strip?_of_empty payload
  · intro hmarker
    refine ⟨Marker.isSome_strip?_iff hmarker, ?_, ?_⟩
    · intro hwhole
      rw [hwhole]
      exact ⟨Marker.strip?_self hmarker, fun clear last => (Marker.append_marker_ne _ _ _).symm⟩
    · intro clear last hends
      subst hends
      refine ⟨Marker.strip?_append_marker hmarker clear last,
        Marker.append_marker_ne clear marker last, ?_⟩
      intro other byte hother
      exact Marker.append_marker_inj hother.symm
  · intro clear hclear frame hframe sending receiving hsending hreceiving
    subst hframe
    have hsender : Marker.strip? sending.options.marker frame.payload = some clear := by
      rw [hsending, hclear]
    have hreceiver : Marker.strip? receiving.options.marker frame.payload = some clear := by
      rw [hreceiving, hclear]
    refine ⟨?_, ?_, ?_⟩
    · intro participant algorithm index entropy
      exact Frame.encrypt_eq_of_clear (KeyOptions.leavesClear_of_strip? (.inr hsender)) _ _ _ _
    · intro participant algorithm
      exact KeyStore.decrypt_of_exempt hreceiver
    · intro Name sender receiver hout houtEnabled hin hinEnabled entropy other sent received
      have hsent := Endpoint.attempt_of_process houtEnabled
        (Endpoint.process_of_exempt_sender hout hsender entropy)
      have hreceived := Endpoint.attempt_of_process hinEnabled
        (Endpoint.process_of_exempt_receiver hin hreceiver other)
      rw [show sent = _ from hsent, show received = _ from hreceived]
      exact ⟨rfl, rfl, rfl, rfl, rfl, rfl⟩

/-- A store without a key, with its one ring put out of use, and with a marker that
overlaps itself. -/
def overlapMarked : KeyStore where
  options :=
    { shared := true
      salt := []
      window := 0
      marker := [7, 7]
      ringSize := 1
      tolerance := some 0 }
  sharedRing := ⟨[], some 0, [none], 1, true⟩
  members := []

theorem marked_frames_go_through_clear_in_overlapMarked :
    Marker.strip? [7, 7] [7, 7, 7, 9] = some [7] ∧
      (Frame.mk .audio false [7, 7, 7, 9]).encrypt overlapMarked ⟨"a"⟩ .aesCbc (-1)
        (.constant 5) = (.ok [7, 7, 7, 9], .constant 5) ∧
      overlapMarked.decrypt ⟨"a"⟩ .aesCbc [7, 7, 7, 9] = (.ok ⟨[7], 0⟩, overlapMarked) := by
  obtain ⟨-, hmarked, hthrough⟩ := marked_frames_go_through_clear [7, 7] [7, 7, 7, 9]
  obtain ⟨-, -, hends⟩ := hmarked (List.cons_ne_nil _ _)
  obtain ⟨hstrip, -, -⟩ := hends [7] 9 rfl
  obtain ⟨hencrypt, hdecrypt, -⟩ := hthrough [7] hstrip ⟨.audio, false, [7, 7, 7, 9]⟩ rfl
    overlapMarked overlapMarked rfl rfl
  exact ⟨hstrip, hencrypt _ _ _ _, hdecrypt _ _⟩

end MediaSeal
