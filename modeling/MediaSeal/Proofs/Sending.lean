import MediaSeal.Proofs.Bystanders
import MediaSeal.Proofs.RoundTrip
import MediaSeal.Proofs.StoreKeys

/-!
# What leaves a sender

A sender that is switched on has three answers to a frame. It lets the frame
through as it is, if nothing in it is meant to be sealed; it holds it back, if
there is no key to seal it with; or it seals it. There is no fourth: the
ciphers take every payload that is not too long for the counter mode, so a
frame with a key for it is sealed.

What is sealed is longer than the frame was. Of the frame itself at most ten
bytes are left readable, and never the last one.
-/

namespace MediaSeal

/-! ## The sealed payload -/

namespace Frame

/-- How long the payload of this frame is once it was sealed. -/
def sealedLength (frame : Frame) : Algorithm → Nat
  | .aesGcm => frame.payload.length + 32
  | .aesCbc =>
    frame.headerLength + 16 * ((frame.payload.length - frame.headerLength) / 16 + 1) + 36

/-- The payload that a frame is sent with once it was sealed. -/
structure SealsTo (frame : Frame) (algorithm : Algorithm) (slot : UInt8) (key : KeyMaterial)
    (iv wire : Bytes) : Prop where
  layout : ∃ body,
    algorithm.encrypt key.frameKey iv
        (frame.payload.take frame.headerLength ++
          [UInt8.ofNat frame.headerLength, algorithm.tag, UInt8.ofNat iv.length, slot])
        (frame.payload.drop frame.headerLength) = .ok body ∧
      wire = frame.payload.take frame.headerLength ++ body ++ iv ++
        [UInt8.ofNat frame.headerLength, algorithm.tag, UInt8.ofNat iv.length, slot]
  header_lt : frame.headerLength < frame.payload.length
  header_le : frame.headerLength ≤ 10
  header_byte : (UInt8.ofNat frame.headerLength).toNat = frame.headerLength
  iv_byte : (UInt8.ofNat iv.length).toNat = iv.length
  length_eq : wire.length = frame.sealedLength algorithm
  longer : frame.payload.length < wire.length

variable {frame : Frame} {algorithm : Algorithm}

theorem sealedLength_eq (h : frame.headerLength ≤ frame.payload.length) :
    frame.sealedLength algorithm =
      frame.headerLength + algorithm.sealedLength (frame.payload.length - frame.headerLength) +
        algorithm.ivLength + Trailer.size := by
  cases algorithm with
  | aesGcm =>
      show _ = frame.headerLength + (frame.payload.length - frame.headerLength + 16) + 12 + 4
      rw [sealedLength]
      omega
  | aesCbc =>
      show _ = frame.headerLength +
        (16 * ((frame.payload.length - frame.headerLength) / 16 + 1) + 16) + 16 + 4
      rw [sealedLength]
      omega

theorem length_lt_sealedLength (frame : Frame) (algorithm : Algorithm) :
    frame.payload.length < frame.sealedLength algorithm := by
  cases algorithm <;> simp only [sealedLength] <;> omega

end Frame

theorem SealedFrame.sealsTo_toBytes {frame : Frame} {algorithm : Algorithm} {slot : UInt8}
    {key : KeyMaterial} {iv : Bytes} {sealed : SealedFrame} (hpayload : frame.payload ≠ [])
    (h : ofFrame frame algorithm slot key iv = .ok sealed) :
    frame.SealsTo algorithm slot key iv sealed.toBytes := by
  have hcarries := carries_of_ofFrame hpayload h
  have hlt := Frame.headerLength_lt hpayload
  obtain ⟨ciphertext, rfl, hciphertext⟩ := ofFrame_eq_ok_iff.mp h
  have hheader : (frame.payload.take frame.headerLength).length = frame.headerLength := by
    rw [List.length_take]
    omega
  have hlength : (toBytes ⟨frame.payload.take frame.headerLength, ciphertext, iv,
      ⟨UInt8.ofNat frame.headerLength, algorithm, UInt8.ofNat iv.length, slot⟩⟩).length =
        frame.sealedLength algorithm := by
    refine (length_toBytes _).trans ?_
    rw [hheader, Algorithm.length_of_encrypt hciphertext, List.length_drop,
      Algorithm.iv_length_of_encrypt hciphertext, Frame.sealedLength_eq (Nat.le_of_lt hlt)]
  exact
    { layout := ⟨ciphertext, hciphertext, rfl⟩
      header_lt := hlt
      header_le := frame.headerLength_le_ten
      header_byte := hcarries.wellFormed.header_length.symm.trans hheader
      iv_byte := hcarries.wellFormed.iv_length.symm
      length_eq := hlength
      longer := by
        rw [hlength]
        exact frame.length_lt_sealedLength algorithm }

/-! ## Which of the three answers -/

theorem KeyStore.sealingKey_cases {store : KeyStore} (hoptions : store.options.fault? = none)
    (participant : Participant) (index : Int) :
    (¬ (0 ≤ index ∧ index < store.options.ringSize) ∧
      store.sealingKey participant index =
        .error (.invalidKeyIndex index store.options.ringSize)) ∨
    ∃ slot : UInt8, index = slot.toNat ∧ slot.toNat < store.options.ringSize ∧
      ((store.key? participant index = none ∧
          store.sealingKey participant index = .error (.missingKey index)) ∨
        ∃ key, store.key? participant index = some key ∧
          store.sealingKey participant index = .ok (slot, key)) := by
  by_cases hindex : 0 ≤ index ∧ index < store.options.ringSize
  · right
    obtain ⟨slot, hslot⟩ := KeyStore.exists_keySlot_eq_ok hoptions hindex
    obtain ⟨hnamed, hlt⟩ := KeyStore.keySlot_eq_ok_iff.mp hslot
    refine ⟨slot, hnamed, hlt, ?_⟩
    unfold sealingKey
    rw [hslot]
    cases hkey : store.key? participant index with
    | none =>
        left
        rw [KeyStore.key?] at hkey
        simp only [bind, Except.bind, hkey, and_self]
    | some key =>
        right
        rw [KeyStore.key?] at hkey
        simp only [bind, Except.bind, hkey]
        exact ⟨key, rfl, rfl⟩
  · left
    have hslot : store.keySlot index =
        .error (.invalidKeyIndex index store.options.ringSize) := if_neg (by omega)
    refine ⟨hindex, ?_⟩
    unfold sealingKey
    rw [hslot]
    rfl

namespace Frame

variable {frame : Frame} {store : KeyStore} {participant : Participant} {index : Int}

/-- No random byte is drawn for a frame that is left clear. -/
theorem encrypt_eq_of_clear (h : store.options.leavesClear frame.payload = true)
    (participant : Participant) (algorithm : Algorithm) (index : Int) (entropy : Entropy) :
    frame.encrypt store participant algorithm index entropy = (.ok frame.payload, entropy) := by
  have hreaches : frame.reachesCipher store participant index = false := by
    rw [reachesCipher, h]
    rfl
  rw [encrypt, if_neg (Bool.eq_false_iff.mp hreaches), encryptWith_of_clear h]

theorem encrypt_of_clear (h : store.options.leavesClear frame.payload = true)
    (algorithm : Algorithm) (entropy : Entropy) :
    (frame.encrypt store participant algorithm index entropy).1 = .ok frame.payload := by
  rw [encrypt_eq_of_clear h]

theorem encrypt_of_error {error : FrameError} (h : store.options.leavesClear frame.payload = false)
    (herror : store.sealingKey participant index = .error error) (algorithm : Algorithm)
    (entropy : Entropy) :
    (frame.encrypt store participant algorithm index entropy).1 = .error error := by
  have hreaches : frame.reachesCipher store participant index = false := by
    rw [reachesCipher, h, herror]
    rfl
  rw [encrypt, if_neg (Bool.eq_false_iff.mp hreaches), encryptWith,
    if_neg (Bool.eq_false_iff.mp h), herror]
  rfl

section SealingKey

variable {slot : UInt8} {key : KeyMaterial} {algorithm : Algorithm}

theorem encryptWith_of_key (h : store.options.leavesClear frame.payload = false)
    (hkey : store.sealingKey participant index = .ok (slot, key))
    (hlength : frame.payload.length ≤ Gcm.maxLength) {iv : Bytes}
    (hiv : iv.length = algorithm.ivLength) :
    ∃ wire, frame.encryptWith store participant algorithm index iv = .ok wire ∧
      frame.SealsTo algorithm slot key iv wire := by
  obtain ⟨sealed, hsealed, hwire⟩ := exists_encryptWith_eq_ok h hkey hlength hiv
  have hpayload := (KeyOptions.leavesClear_eq_false_iff.mp h).1
  exact ⟨sealed.toBytes, hwire, SealedFrame.sealsTo_toBytes hpayload hsealed⟩

theorem encrypt_of_key (h : store.options.leavesClear frame.payload = false)
    (hkey : store.sealingKey participant index = .ok (slot, key))
    (hlength : frame.payload.length ≤ Gcm.maxLength) (algorithm : Algorithm)
    (entropy : Entropy) :
    ∃ wire, (frame.encrypt store participant algorithm index entropy).1 = .ok wire ∧
      frame.SealsTo algorithm slot key (entropy.draw algorithm.ivLength).1 wire := by
  have hreaches : frame.reachesCipher store participant index = true := by
    rw [reachesCipher, h, hkey]
    rfl
  rw [encrypt_eq_encryptWith hreaches]
  exact encryptWith_of_key h hkey hlength (entropy.length_draw _)

end SealingKey

/-- What a sender sends is the payload as it is, or the payload sealed. -/
theorem encrypt_eq_ok {algorithm : Algorithm} {entropy : Entropy} {wire : Bytes}
    (h : (frame.encrypt store participant algorithm index entropy).1 = .ok wire) :
    (store.options.leavesClear frame.payload = true ∧ wire = frame.payload) ∨
      (store.options.leavesClear frame.payload = false ∧
        ∃ slot key sealed, store.sealingKey participant index = .ok (slot, key) ∧
          SealedFrame.ofFrame frame algorithm slot key (entropy.draw algorithm.ivLength).1 =
            .ok sealed ∧
          sealed.toBytes = wire) := by
  cases hclear : store.options.leavesClear frame.payload with
  | true =>
      rw [encrypt_of_clear hclear] at h
      exact .inl ⟨rfl, (Except.ok.inj h).symm⟩
  | false =>
      cases hkey : store.sealingKey participant index with
      | error error =>
          rw [encrypt_of_error hclear hkey] at h
          cases h
      | ok found =>
          obtain ⟨slot, key⟩ := found
          have hreaches : frame.reachesCipher store participant index = true := by
            rw [reachesCipher, hclear, hkey]
            rfl
          rw [encrypt_eq_encryptWith hreaches] at h
          obtain ⟨_, _, hagain, sealed, hsealed, hwire⟩ := (encryptWith_eq_ok_iff hclear).mp h
          rw [hkey] at hagain
          cases hagain
          exact .inr ⟨rfl, slot, key, sealed, rfl, hsealed, hwire⟩

end Frame

/-! ## A sender's attempt -/

namespace Endpoint

variable {Name : Type} {endpoint : Endpoint Name} {store : KeyStore} {entropy : Entropy}
  {frame : Frame}

theorem store_attempt_of_sender (h : endpoint.direction = .sender) :
    (endpoint.attempt store entropy frame).store = store := by
  unfold attempt process
  rw [h]
  split <;> rfl

theorem attempt_of_encrypt_ok {wire : Bytes} (hdirection : endpoint.direction = .sender)
    (henabled : endpoint.enabled = true)
    (h : (frame.encrypt store endpoint.participant endpoint.algorithm endpoint.keyIndex
      entropy).1 = .ok wire) :
    (endpoint.attempt store entropy frame).output = some (frame.withPayload wire) ∧
      (endpoint.attempt store entropy frame).endpoint.lastOutcome = some .ok := by
  simp only [attempt, process, hdirection, henabled, h, if_true]
  exact ⟨rfl, rfl⟩

theorem attempt_of_encrypt_error {error : FrameError} (hdirection : endpoint.direction = .sender)
    (henabled : endpoint.enabled = true)
    (h : (frame.encrypt store endpoint.participant endpoint.algorithm endpoint.keyIndex
      entropy).1 = .error error) :
    (endpoint.attempt store entropy frame).output = none ∧
      (endpoint.attempt store entropy frame).endpoint.lastOutcome = some error.outcome := by
  simp only [attempt, process, hdirection, henabled, h, if_true]
  exact ⟨rfl, rfl⟩

end Endpoint

/-- A sender that is switched on lets a frame through that is not meant to be
sealed; it holds back exactly those that it has no key for, and reports why;
and all others it seals, whatever the vector is. No key store changes. -/
theorem enabled_sender_output {session : Session} {ref : Ref .endpoint} {station : Station}
    {store : KeyStore} {entropy : Entropy} {frame : Frame}
    (hstation : session.stations.get? ref = some station)
    (hstore : session.stores.get? station.store = some store)
    (hentropy : session.entropies.get? station.entropy = some entropy)
    (hdirection : station.endpoint.direction = .sender)
    (henabled : station.endpoint.enabled = true)
    (hoptions : store.options.fault? = none)
    (hlength : frame.payload.length ≤ Gcm.maxLength) :
    let endpoint := station.endpoint
    let index := endpoint.keyIndex
    let inRing := 0 ≤ index ∧ index < store.options.ringSize
    let key? := store.key? endpoint.participant index
    let passed := session.transform ref frame
    let outcome := (passed.2.endpoint? ref).map (·.lastOutcome)
    (store.options.leavesClear frame.payload = true → passed.1 = some frame) ∧
    (store.options.leavesClear frame.payload = false →
      (passed.1 = none ↔ ¬ inRing ∨ key? = none) ∧
      (¬ inRing → outcome = some (some .internalError)) ∧
      (inRing → key? = none → outcome = some (some .missingKey)) ∧
      ∀ key, inRing → key? = some key → ∃ slot : UInt8, index = slot.toNat ∧
        (∃ wire, passed.1 = some (frame.withPayload wire) ∧
          frame.SealsTo endpoint.algorithm slot key
            (entropy.draw endpoint.algorithm.ivLength).1 wire) ∧
        ∀ iv, iv.length = endpoint.algorithm.ivLength → ∃ wire,
          frame.encryptWith store endpoint.participant endpoint.algorithm index iv = .ok wire ∧
            frame.SealsTo endpoint.algorithm slot key iv wire) ∧
    passed.2.stores = session.stores := by
  intro endpoint index inRing key? passed outcome
  have houtput : passed.1 = (endpoint.attempt store entropy frame).output := by
    rw [show passed = _ from Session.transform_eq hstation hstore hentropy frame]
  have houtcome : outcome = some (endpoint.attempt store entropy frame).endpoint.lastOutcome :=
    Session.lastOutcome_transform hstation hstore hentropy frame
  refine ⟨fun hclear => ?_, fun hclear => ?_, ?_⟩
  · have hencrypt : (frame.encrypt store endpoint.participant endpoint.algorithm index entropy).1 =
        .ok frame.payload := Frame.encrypt_of_clear hclear _ _
    rw [houtput, (Endpoint.attempt_of_encrypt_ok hdirection henabled hencrypt).1]
    rfl
  · rcases KeyStore.sealingKey_cases hoptions endpoint.participant index with
      ⟨hout, herror⟩ | ⟨slot, hslot, hlt, ⟨hnone, herror⟩ | ⟨key, hkey, hsealing⟩⟩
    · have ⟨hdropped, hreported⟩ := Endpoint.attempt_of_encrypt_error hdirection henabled
        (Frame.encrypt_of_error hclear herror endpoint.algorithm entropy)
      refine ⟨⟨fun _ => .inl hout, fun _ => houtput.trans hdropped⟩, fun _ => ?_,
        fun hin => absurd hin hout, fun _ hin => absurd hin hout⟩
      exact houtcome.trans (congrArg some hreported)
    · have hin : inRing := ⟨by omega, by omega⟩
      have ⟨hdropped, hreported⟩ := Endpoint.attempt_of_encrypt_error hdirection henabled
        (Frame.encrypt_of_error hclear herror endpoint.algorithm entropy)
      refine ⟨⟨fun _ => .inr hnone, fun _ => houtput.trans hdropped⟩,
        fun hout => absurd hin hout, fun _ _ => houtcome.trans (congrArg some hreported), ?_⟩
      intro key _ hkey
      cases hnone.symm.trans hkey
    · have hin : inRing := ⟨by omega, by omega⟩
      obtain ⟨wire, hencrypt, hseals⟩ :=
        Frame.encrypt_of_key hclear hsealing hlength endpoint.algorithm entropy
      have hsent : passed.1 = some (frame.withPayload wire) :=
        houtput.trans (Endpoint.attempt_of_encrypt_ok hdirection henabled hencrypt).1
      refine ⟨?_, fun hout => absurd hin hout, fun _ hnone => ?_, fun found _ hfound => ?_⟩
      · rw [hsent]
        constructor
        · intro hnone
          cases hnone
        · rintro (hout | hnone)
          · exact absurd hin hout
          · cases hkey.symm.trans hnone
      · cases hkey.symm.trans hnone
      · obtain rfl : key = found := Option.some.inj (hkey.symm.trans hfound)
        exact ⟨slot, hslot, ⟨wire, hsent, hseals⟩, fun iv hiv =>
          Frame.encryptWith_of_key hclear hsealing hlength hiv⟩
  · rw [show passed = _ from Session.transform_eq hstation hstore hentropy frame,
      (Session.keepsRecord_report _ _ _ _).stores_eq, Session.settle,
      Endpoint.store_attempt_of_sender hdirection, Registry.set_of_get? hstore]

/-- A sender that is switched on, at the last slot of its store. -/
def lastSlotSender : Station where
  endpoint :=
    { participant := ⟨"a"⟩
      direction := .sender
      algorithm := .aesCbc
      media := .video
      enabled := true
      keyIndex := 1
      observer := none
      lastOutcome := none
      detached := false }
  store := ⟨0⟩
  entropy := ⟨0⟩
  path := ⟨0⟩

/-- A session with nothing but this sender. -/
def lastSlotSession : Session :=
  { Session.empty with
    stores := ⟨[lastSlotStore], []⟩
    entropies := ⟨[.constant 5], []⟩
    stations := ⟨[lastSlotSender], []⟩ }

theorem enabled_sender_output_of_three_bytes :
    ∃ wire, (lastSlotSession.transform ⟨0⟩ ⟨.video, true, [1, 2, 3]⟩).1 =
        some ⟨.video, true, wire⟩ ∧
      (Frame.mk .video true [1, 2, 3]).SealsTo .aesCbc 1 (.supplied [1] [])
        (List.replicate 16 5) wire ∧ wire.length = 54 := by
  have hclear : lastSlotStore.options.leavesClear [1, 2, 3] = false := by decide
  have hstation : lastSlotSession.stations.get? ⟨0⟩ = some lastSlotSender := rfl
  have hstore : lastSlotSession.stores.get? ⟨0⟩ = some lastSlotStore := rfl
  have hentropy : lastSlotSession.entropies.get? ⟨0⟩ = some (.constant 5) := rfl
  have hlength : (Frame.mk .video true [1, 2, 3]).payload.length ≤ Gcm.maxLength := by decide
  obtain ⟨-, hsealed, -⟩ :=
    enabled_sender_output hstation hstore hentropy rfl rfl rfl hlength
  obtain ⟨-, -, -, hkeyed⟩ := hsealed hclear
  obtain ⟨slot, hslot, ⟨wire, hwire, hseals⟩, -⟩ :=
    hkeyed (.supplied [1] []) ⟨by decide, by decide⟩ rfl
  obtain rfl : slot = 1 := UInt8.toNat_inj.mp (Int.natCast_inj.mp hslot.symm)
  exact ⟨wire, hwire, hseals, hseals.length_eq⟩

end MediaSeal
